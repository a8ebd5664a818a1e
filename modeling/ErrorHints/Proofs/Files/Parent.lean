import ErrorHints.Strategy.FileTree
import Mathlib.Data.List.TakeWhile

/-!
# The parent of a path in a tree of files

The parent of a path is found in its text, and a walk along the path goes through the tree. The
parts of a path that lead anywhere are the same for both: the parent has all of them but the last.
A step is taken from a directory only, so what a path leads to is in its parent.

For a path that fails because of a file its parent is suggested. If the path leads to the file, the
parent is the directory that the file is in. If it goes on behind the file by one part, the parent
is the file.

Results:
* `of_parent?`: the parent has all parts that lead anywhere but the last.
* `isDirectory_parent`: the parent of what exists is a directory.
* `mem_candidates_parentDirectory`: what is suggested for a path, and what is there.
-/
namespace ErrorHints

namespace Path

/-! ## Parts that lead anywhere -/

/-- Whether a walk gets anywhere by a part. -/
def isStride (part : List Char) : Bool := part ≠ [] ∧ part ≠ ['.']

/-- The parts of a path that lead anywhere. -/
def strides (path : List Char) : List (List Char) := (parts path).filter isStride

theorem parts_append (x y : List Char) : parts (x ++ '/' :: y) = parts x ++ parts y := by
  induction x with
  | nil =>
    obtain ⟨p, ps, h⟩ := List.exists_cons_of_ne_nil (parts_ne_nil y)
    simp [parts, h]
  | cons c x ih =>
    rw [List.cons_append, parts, ih, parts]
    obtain ⟨p, ps, h⟩ := List.exists_cons_of_ne_nil (parts_ne_nil x)
    by_cases hc : c = '/' <;> simp [h, hc]

theorem parts_of_notMem {part : List Char} (h : '/' ∉ part) : parts part = [part] := by
  induction part with
  | nil => rfl
  | cons c part ih =>
    rw [List.mem_cons, not_or] at h
    rw [parts, ih h.2]
    simp [Ne.symm h.1]

theorem strides_append (x y : List Char) :
    strides (x ++ '/' :: y) = strides x ++ strides y := by
  rw [strides, parts_append, List.filter_append]
  rfl

@[simp]
theorem strides_nil : strides [] = [] := rfl

@[simp]
theorem strides_dot : strides ['.'] = [] := by decide

@[simp]
theorem strides_slash (path : List Char) : strides ('/' :: path) = strides path :=
  strides_append [] path

theorem dropBlankParts_suffix (r : List Char) : dropBlankParts r <:+ r := by
  fun_induction dropBlankParts r with
  | case1 r ih => exact ih.trans (List.suffix_cons _ _)
  | case2 r ih => exact ih.trans ((List.suffix_cons _ _).trans (List.suffix_cons _ _))
  | case3 => exact List.nil_suffix
  | case4 r _ _ _ => exact List.suffix_refl r

/-- Blank parts at the end lead nowhere. -/
theorem strides_reverse_dropBlankParts (r : List Char) :
    strides (dropBlankParts r).reverse = strides r.reverse := by
  fun_induction dropBlankParts r with
  | case1 r ih =>
    rw [ih, List.reverse_cons, strides_append, strides_nil, List.append_nil]
  | case2 r ih =>
    rw [ih, List.reverse_cons, List.reverse_cons, List.append_assoc]
    show _ = strides (r.reverse ++ '/' :: ['.'])
    rw [strides_append, strides_dot, List.append_nil]
  | case3 => rfl
  | case4 r _ _ _ => rfl

/-- What comes behind the last slash leads somewhere if it is not blank. -/
theorem isStride_last {r : List Char} (hne : r ≠ []) (hslash : ∀ z, r ≠ '/' :: z)
    (hslashes : ∀ z, r ≠ '.' :: '/' :: z) (hdot : r ≠ ['.']) :
    isStride (r.takeWhile (· ≠ '/')).reverse := by
  obtain ⟨c, r, rfl⟩ := List.exists_cons_of_ne_nil hne
  have hc : c ≠ '/' := fun h => hslash r (h ▸ rfl)
  rw [List.takeWhile_cons_of_pos (by simpa using hc), List.reverse_cons]
  simp only [isStride, ne_eq, List.append_eq_nil_iff, List.cons_ne_nil, and_false, not_false_eq_true,
    true_and, decide_eq_true_eq]
  intro h
  cases r with
  | nil =>
    obtain rfl : c = '.' := by simpa using h
    exact hdot rfl
  | cons d r =>
    by_cases hd : d = '/'
    · subst hd
      obtain rfl : c = '.' := by simpa using h
      exact hslashes r rfl
    · rw [List.takeWhile_cons_of_pos (by simpa using hd)] at h
      have hlen := congrArg List.length h
      simp at hlen

/-- A path that does not end with a blank part ends with one that leads somewhere. -/
theorem exists_last_stride (r : List Char) (hne : dropBlankParts r ≠ []) :
    ∃ last, strides r.reverse =
      strides (((dropBlankParts r).dropWhile (· ≠ '/')).drop 1).reverse ++ [last] := by
  rw [← strides_reverse_dropBlankParts]
  fun_induction dropBlankParts r with
  | case1 r ih => exact ih hne
  | case2 r ih => exact ih hne
  | case3 => exact absurd rfl hne
  | case4 r hslash hslashes hdot =>
    let last := (r.takeWhile (· ≠ '/')).reverse
    have hclean : '/' ∉ last := by
      intro h
      simpa using List.mem_takeWhile_imp (List.mem_reverse.1 h)
    have hstride : isStride last := isStride_last hne hslash hslashes hdot
    have hlast : strides last = [last] := by
      rw [strides, parts_of_notMem hclean, List.filter_cons_of_pos hstride, List.filter_nil]
    refine ⟨last, ?_⟩
    have hsplit := List.takeWhile_append_dropWhile (p := (· ≠ '/')) (l := r)
    have hhead := List.head?_dropWhile_not (· ≠ '/') r
    cases htail : r.dropWhile (· ≠ '/') with
    | nil =>
      rw [htail, List.append_nil] at hsplit
      rw [← hsplit]
      exact hlast
    | cons c z =>
      rw [htail] at hhead hsplit
      obtain rfl : c = '/' := by simpa using hhead
      have hreverse : r.reverse = z.reverse ++ '/' :: last := by
        conv => lhs; rw [← hsplit]
        simp [last]
      rw [hreverse, strides_append, hlast]
      rfl

/-! ## The parent -/

theorem start_append_drop (path : List Char) :
    start path ++ path.drop (start path).length = path := by
  fun_cases start path <;> rfl

/-- What a path starts with leads nowhere. -/
theorem strides_start_append {path rest : List Char}
    (h : rest <+: path.drop (start path).length) : strides (start path ++ rest) = strides rest := by
  fun_cases start path with
  | case1 r => exact strides_slash rest
  | case2 =>
    obtain rfl := List.prefix_nil.1 h
    exact strides_dot
  | case3 r =>
    rcases List.prefix_cons_iff.1 (show rest <+: '/' :: r from h) with rfl | ⟨t, rfl, -⟩
    · exact strides_dot
    · show strides (['.'] ++ '/' :: t) = _
      rw [strides_append, strides_dot, strides_slash, List.nil_append]
  | case4 => rfl

/-- The parent ends before the last part and the blank ones before that. -/
theorem eq_of_parent? {path parent : List Char} (h : parent? path = some parent) :
    let body := dropBlankParts (path.drop (start path).length).reverse
    body ≠ [] ∧ parent ≠ [] ∧
      parent = start path ++ (dropBlankParts ((body.dropWhile (· ≠ '/')).drop 1)).reverse := by
  simp only [parent?] at h
  split at h
  · cases h
  · rename_i hbody
    split at h
    · cases h
    · rename_i hparent
      obtain rfl := Option.some.inj h
      exact ⟨hbody, hparent, rfl⟩

/-- The parent is the front of a path, with all parts that lead anywhere but the last. -/
theorem of_parent? {path parent : List Char} (h : parent? path = some parent) :
    parent ≠ [] ∧ parent <+: path ∧ ∃ last, strides path = strides parent ++ [last] := by
  obtain ⟨hbody, hne, hparent⟩ := eq_of_parent? h
  set rest := path.drop (start path).length with hrest
  have hpath : start path ++ rest = path := start_append_drop path
  have hup : (dropBlankParts (((dropBlankParts rest.reverse).dropWhile (· ≠ '/')).drop 1)).reverse
      <+: rest := by
    rw [← List.reverse_suffix, List.reverse_reverse]
    exact (dropBlankParts_suffix _).trans ((List.drop_suffix _ _).trans
      ((List.dropWhile_suffix _).trans (dropBlankParts_suffix _)))
  obtain ⟨last, hlast⟩ := exists_last_stride _ hbody
  refine ⟨hne, ?_, last, ?_⟩
  · calc parent = _ := hparent
      _ <+: start path ++ rest := (List.prefix_append_right_inj _).2 hup
      _ = path := hpath
  · calc strides path = strides (start path ++ rest) := by rw [hpath]
      _ = strides rest.reverse.reverse := by
        rw [strides_start_append (List.prefix_refl _), List.reverse_reverse]
      _ = _ := hlast
      _ = strides parent ++ [last] := by
        rw [hparent, strides_start_append hup, strides_reverse_dropBlankParts]

theorem isAbsolute_parent {path parent : List Char} (hne : parent ≠ []) (h : parent <+: path) :
    isAbsolute parent = isAbsolute path := by
  obtain ⟨c, cs, rfl⟩ := List.exists_cons_of_ne_nil hne
  obtain ⟨back, rfl⟩ := h
  rfl

/-- A walk takes the parts that lead anywhere, and `.` between them. -/
theorem filter_steps (path : List Char) : (steps path).filter (· ≠ ['.']) = strides path := by
  have hend : (if path.getLast? = some '/' then [['.']] else []).filter (· ≠ ['.']) = [] := by
    split <;> rfl
  rw [steps, List.filter_append, hend, List.append_nil, List.filter_filter, strides]
  refine List.filter_congr fun part _ => ?_
  rw [isStride, Bool.decide_and, Bool.and_comm]

end Path

/-! ## Walks -/

namespace Place

variable {p q : Place}

/-- A step is taken from a directory. -/
theorem isFile_of_step {part : List Char} (h : p.step part = .ok q) : p.node.isFile = false := by
  unfold step at h
  split at h
  · cases h
  · rename_i hnode
    rw [hnode]
    rfl

theorem walk_append_eq_ok_iff {parts parts' : List (List Char)} :
    p.walk (parts ++ parts') = .ok q ↔ ∃ r, p.walk parts = .ok r ∧ r.walk parts' = .ok q := by
  rw [walk_append]
  cases p.walk parts <;> simp [Except.bind]

theorem walk_cons_eq_ok_iff {part : List Char} {parts : List (List Char)} :
    p.walk (part :: parts) = .ok q ↔ ∃ r, p.step part = .ok r ∧ r.walk parts = .ok q := by
  show (p.step part).bind (·.walk parts) = _ ↔ _
  cases p.step part <;> simp [Except.bind]

/-- What leads to a directory starts from one. -/
theorem isFile_of_walk {parts : List (List Char)} (h : p.walk parts = .ok q)
    (hq : q.node.isFile = false) : p.node.isFile = false := by
  cases parts with
  | nil =>
    cases h
    exact hq
  | cons part parts =>
    obtain ⟨r, hstep, -⟩ := walk_cons_eq_ok_iff.1 h
    exact isFile_of_step hstep

theorem step_dot (h : p.node.isFile = false) : p.step ['.'] = .ok p := by
  unfold step
  split
  · rename_i hnode
    rw [hnode] at h
    cases h
  · rfl

/-- Without the `.` parts a walk leads to the same place. -/
theorem walk_filter {parts : List (List Char)} (h : p.walk parts = .ok q) :
    p.walk (parts.filter (· ≠ ['.'])) = .ok q := by
  induction parts generalizing p with
  | nil => exact h
  | cons part parts ih =>
    obtain ⟨r, hstep, hrest⟩ := walk_cons_eq_ok_iff.1 h
    by_cases hdot : part = ['.']
    · subst hdot
      rw [step_dot (isFile_of_step hstep)] at hstep
      cases hstep
      exact ih hrest
    · rw [List.filter_cons_of_pos (by simpa using hdot)]
      exact walk_cons_eq_ok_iff.2 ⟨r, hstep, ih hrest⟩

/-- With them it still does if it leads to a directory. -/
theorem walk_of_filter {parts : List (List Char)} (hq : q.node.isFile = false)
    (h : p.walk (parts.filter (· ≠ ['.'])) = .ok q) : p.walk parts = .ok q := by
  induction parts generalizing p with
  | nil => exact h
  | cons part parts ih =>
    by_cases hdot : part = ['.']
    · subst hdot
      exact walk_cons_eq_ok_iff.2 ⟨p, step_dot (isFile_of_walk h hq), ih h⟩
    · rw [List.filter_cons_of_pos (by simpa using hdot)] at h
      obtain ⟨r, hstep, hrest⟩ := walk_cons_eq_ok_iff.1 h
      exact walk_cons_eq_ok_iff.2 ⟨r, hstep, ih hrest⟩

end Place

namespace Files

variable {f : Files} {path parent : String}

/-- The place that a walk along a path starts from. -/
def first (f : Files) (path : String) : Place :=
  if Path.isAbsolute path.toList then f.root else f.working

theorem find_eq : f.find path =
    if path = "" then .error .missing
    else if pathByteLimit ≤ path.utf8ByteSize then .error .nameTooLong
    else ((f.first path).walk (Path.steps path.toList)).map Place.node := rfl

theorem find_eq_ok_iff {n : Node} :
    f.find path = .ok n ↔ path ≠ "" ∧ path.utf8ByteSize < pathByteLimit ∧
      ∃ q, (f.first path).walk (Path.steps path.toList) = .ok q ∧ q.node = n := by
  rw [find_eq]
  by_cases hempty : path = ""
  · simp [hempty]
  by_cases hsize : path.utf8ByteSize < pathByteLimit
  · rw [if_neg hempty, if_neg (Nat.not_le.2 hsize)]
    cases (f.first path).walk (Path.steps path.toList) <;> simp [Except.map, hempty, hsize]
  · simp [hempty, hsize, Nat.not_lt.1 hsize]

theorem contains_iff : f.contains path ↔ ∃ n, f.find path = .ok n := by
  unfold contains
  cases f.find path <;> simp [Except.isOk, Except.toBool]

theorem isFile_iff : f.isFile path ↔ f.find path = .ok .file := by
  unfold isFile
  rcases f.find path with e | n
  · simp
  · cases n <;> simp [Node.isFile]

theorem isDirectory_iff : f.isDirectory path ↔ ∃ n, f.find path = .ok n ∧ n.isFile = false := by
  unfold isDirectory
  rcases f.find path with e | n <;> simp

/-- A file is no directory. -/
theorem isDirectory_eq_false (h : f.isFile path) : f.isDirectory path = false := by
  rw [isDirectory, isFile_iff.1 h]
  rfl

theorem contains_of_isFile (h : f.isFile path) : f.contains path :=
  contains_iff.2 ⟨_, isFile_iff.1 h⟩

/-- The parent of what exists is a directory. -/
theorem isDirectory_parent (hparent : Path.parent? path.toList = some parent.toList)
    (h : f.contains path) : f.isDirectory parent := by
  obtain ⟨n, hfind⟩ := contains_iff.1 h
  obtain ⟨-, hsize, q, hwalk, -⟩ := find_eq_ok_iff.1 hfind
  obtain ⟨hne, hfront, last, hstrides⟩ := Path.of_parent? hparent
  have hsame : f.first parent = f.first path := by
    rw [first, first, Path.isAbsolute_parent hne hfront]
  have hsteps := Place.walk_filter hwalk
  rw [Path.filter_steps, hstrides, ← Path.filter_steps, ← hsame] at hsteps
  -- the last part is stepped along from the parent
  obtain ⟨r, hup, hlast⟩ := Place.walk_append_eq_ok_iff.1 hsteps
  obtain ⟨_, hstep, -⟩ := Place.walk_cons_eq_ok_iff.1 hlast
  have hdir := Place.isFile_of_step hstep
  refine isDirectory_iff.2 ⟨r.node, find_eq_ok_iff.2 ⟨?_, ?_, r, ?_, rfl⟩, hdir⟩
  · rintro rfl
    exact hne rfl
  · obtain ⟨back, hback⟩ := hfront
    have hpath : path = parent ++ String.ofList back := by
      rw [← String.toList_inj, String.toList_append, String.toList_ofList, hback]
    rw [hpath, String.utf8ByteSize_append] at hsize
    omega
  · exact Place.walk_of_filter hdir hup

/-- If a path or its parent names a file, then the path does and its parent is a directory, or the
parent does and nothing is at the path. -/
theorem isFile_or_isFile_parent_iff (hparent : Path.parent? path.toList = some parent.toList) :
    f.isFile path ∨ f.isFile parent ↔
      f.isFile path ∧ f.isDirectory parent ∨ f.contains path = false ∧ f.isFile parent := by
  constructor
  · rintro (hfile | hfile)
    · exact .inl ⟨hfile, isDirectory_parent hparent (contains_of_isFile hfile)⟩
    · refine .inr ⟨Bool.eq_false_iff.2 fun hcontains => ?_, hfile⟩
      exact Bool.eq_false_iff.1 (isDirectory_eq_false hfile) (isDirectory_parent hparent hcontains)
  · rintro (⟨hfile, -⟩ | ⟨-, hfile⟩)
    · exact .inl hfile
    · exact .inr hfile

end Files

namespace Strategy

variable {cx : Context} {path : String}

theorem candidates_parentDirectory (hpath : cx.fields.get? .path = some path) :
    (parentDirectory.generate cx).candidates =
      match Path.parent? path.toList with
      | none => []
      | some parent =>
        if cx.host.files.isFile path ∨ cx.host.files.isFile (String.ofList parent) then
          [⟨quoted (String.ofList parent) ++ " (calling os.path.dirname)", "parent-directory", none⟩]
        else [] := by
  refine (candidates_of_field hpath).trans ?_
  cases Path.parent? path.toList with
  | none => rfl
  | some parent =>
    simp only [Bool.or_eq_true]
    by_cases hfile : cx.host.files.isFile path ∨ cx.host.files.isFile (String.ofList parent)
    · simp only [if_pos hfile]
      rfl
    · simp only [if_neg hfile]
      rfl

/-- What is suggested for a path is its parent: for the path of a file the directory that the file
is in, and for a path at which nothing is, the file that its parent names. -/
theorem mem_candidates_parentDirectory {c : Candidate} :
    c ∈ (parentDirectory.generate cx).candidates ↔ ∃ path parent,
      cx.fields.get? .path = some path ∧ Path.parent? path.toList = some parent.toList ∧
        (cx.host.files.isFile path ∧ cx.host.files.isDirectory parent ∨
          cx.host.files.contains path = false ∧ cx.host.files.isFile parent) ∧
        c = ⟨quoted parent ++ " (calling os.path.dirname)", "parent-directory", none⟩ := by
  cases hpath : cx.fields.get? .path with
  | none =>
    have hnone : (parentDirectory.generate cx).candidates = [] := candidates_of_missing_field hpath
    simp [hnone]
  | some path =>
    rw [candidates_parentDirectory hpath]
    cases hparent : Path.parent? path.toList with
    | none => simp [hparent]
    | some chars =>
      obtain ⟨parent, rfl⟩ : ∃ parent : String, chars = parent.toList :=
        ⟨String.ofList chars, String.toList_ofList.symm⟩
      simp only [String.ofList_toList]
      constructor
      · intro hc
        split at hc
        · rename_i hfile
          exact ⟨path, parent, rfl, hparent, (Files.isFile_or_isFile_parent_iff hparent).1 hfile,
            List.mem_singleton.1 hc⟩
        · cases hc
      · rintro ⟨path', parent', hpath', hparent', hfile, rfl⟩
        obtain rfl : path = path' := Option.some.inj hpath'
        obtain rfl : parent = parent' := by simpa [hparent, String.toList_inj] using hparent'
        rw [if_pos ((Files.isFile_or_isFile_parent_iff hparent).2 hfile)]
        exact List.mem_singleton_self _

/-- Not every parent that is suggested is a directory: below a file nothing is found, and the file
itself is what is suggested. -/
theorem not_isDirectory_suggested :
    let files : Files := ⟨⟨Node.empty.withFile ["plain.txt"], []⟩⟩
    let cx : Context :=
      { kind := .notADirectory, fields := Fields.empty.insert .path "plain.txt/inner", symbols := {}
        knowledge := .standard, host := .ofVariables files [] }
    (parentDirectory.generate cx).candidates =
        [⟨quoted "plain.txt" ++ " (calling os.path.dirname)", "parent-directory", none⟩] ∧
      files.isDirectory "plain.txt" = false ∧ files.isFile "plain.txt" := by
  decide

end Strategy

end ErrorHints
