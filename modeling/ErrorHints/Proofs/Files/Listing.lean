import ErrorHints.Proofs.Knowledge.KeyOrder
import ErrorHints.Strategy.FileTree

/-!
# What is shown of a directory

The system lists the entries of a directory in an order of its own. What is said of a directory is
the same for all of these orders: the names are sorted before some of them are shown, and no two
entries have one name.

Two trees that differ only in these orders are walked alike. A step looks a name up, which is found
in the one directory if it is found in the other, and the places that the steps lead to differ only
in the orders again.

Results:
* `endsAlike_step`, `endsAlike_walk`: what a step and a walk preserve.
* `endsAlike_find`: what is found at a path differs in the orders only.
* `listing_of_perm`: what is said of a directory does not depend on the order of its names.
* `generate_directoryListing`: what is said of a directory, for all orders.
-/
namespace ErrorHints

/-! ## Trees that are listed in other orders -/

/-- The two trees have the same directories and files. Every directory may be listed in an order
of its own. -/
inductive Node.Relists : Node → Node → Prop where
  | file : Relists .file .file
  | directory {entries entries' : Slots String Node}
      (names : (Slots.keys entries).Perm (Slots.keys entries'))
      (inner : ∀ name n n', Slots.get? name entries = some n → Slots.get? name entries' = some n' →
        Relists n n') :
      Relists (.directory entries) (.directory entries')

/-- A tree is listed in its own order. -/
theorem Node.relists_refl : (n : Node) → n.Relists n
  | file => .file
  | directory entries => .directory (.refl _) fun name n n' hn hn' => by
    obtain rfl : n = n' := Option.some.inj (hn.symm.trans hn')
    have hmem : (name, n) ∈ entries := Slots.mem_of_get? hn
    exact relists_refl n
termination_by n => sizeOf n
decreasing_by
  have := List.sizeOf_lt_of_mem hmem
  simp only [Prod.mk.sizeOf_spec, directory.sizeOf_spec] at this ⊢
  omega

/-- Any order of the entries of a directory makes such a tree. -/
theorem Node.relists_of_perm {entries entries' : Slots String Node} (h : entries.Perm entries')
    (hnames : (Slots.keys entries).Nodup) : (directory entries).Relists (directory entries') := by
  have hperm : (Slots.keys entries).Perm (Slots.keys entries') := h.map Prod.fst
  refine .directory hperm fun name n n' hn hn' => ?_
  have hsame := (Slots.get?_eq_some_iff hnames).2 (h.mem_iff.2 (Slots.mem_of_get? hn'))
  obtain rfl : n = n' := Option.some.inj (hn.symm.trans hsame)
  exact relists_refl n

/-- A name stands in both directories or in none. -/
theorem Node.rel_get? {entries entries' : Slots String Node}
    (h : (directory entries).Relists (directory entries')) (name : String) :
    Option.Rel Relists (Slots.get? name entries) (Slots.get? name entries') := by
  obtain _ | ⟨names, inner⟩ := h
  have hfound : (Slots.get? name entries).isSome ↔ (Slots.get? name entries').isSome := by
    rw [Slots.get?_isSome_iff, Slots.get?_isSome_iff, names.mem_iff]
  cases hn : Slots.get? name entries with
  | none =>
    have hn' : Slots.get? name entries' = none := by simpa [hn] using hfound
    rw [hn']
    exact .none
  | some n =>
    obtain ⟨n', hn'⟩ := Option.isSome_iff_exists.1 (hfound.1 (by rw [hn]; rfl))
    rw [hn']
    exact .some (inner name n n' hn hn')

/-- The places differ in the orders of listing only, above them as well. -/
structure Place.Relists (p q : Place) : Prop where
  node : p.node.Relists q.node
  above : List.Forall₂ Node.Relists p.above q.above

/-- The two searches end in the same fault, or what they find is related. -/
inductive EndsAlike {α : Type} (r : α → α → Prop) :
    Except PathFault α → Except PathFault α → Prop where
  | error (fault : PathFault) : EndsAlike r (.error fault) (.error fault)
  | ok {x y : α} (h : r x y) : EndsAlike r (.ok x) (.ok y)

namespace EndsAlike

variable {α β : Type} {r : α → α → Prop} {s : β → β → Prop} {x y : Except PathFault α}

theorem bind {f g : α → Except PathFault β} (h : EndsAlike r x y)
    (hrest : ∀ u v, r u v → EndsAlike s (f u) (g v)) : EndsAlike s (x.bind f) (y.bind g) := by
  cases h with
  | error fault => exact .error fault
  | ok h => exact hrest _ _ h

theorem map {f g : α → β} (h : EndsAlike r x y) (hfg : ∀ u v, r u v → s (f u) (g v)) :
    EndsAlike s (x.map f) (y.map g) := by
  cases h with
  | error fault => exact .error fault
  | ok h => exact .ok (hfg _ _ h)

end EndsAlike

namespace Place

variable {p q : Place}

/-- A step leads to places that differ in the orders only. -/
theorem endsAlike_step (h : p.Relists q) (part : List Char) :
    EndsAlike Relists (p.step part) (q.step part) := by
  obtain ⟨n, above⟩ := p
  obtain ⟨n', above'⟩ := q
  obtain ⟨hnode, habove⟩ := h
  simp only at hnode habove
  unfold step
  cases n with
  | file =>
    cases hnode
    exact .error _
  | directory entries =>
    obtain ⟨entries', rfl⟩ : ∃ entries', n' = .directory entries' := by
      cases hnode
      exact ⟨_, rfl⟩
    simp only
    by_cases hdot : part = ['.']
    · rw [if_pos hdot, if_pos hdot]
      exact .ok ⟨hnode, habove⟩
    by_cases hup : part = ['.', '.']
    · rw [if_neg hdot, if_neg hdot, if_pos hup, if_pos hup]
      cases habove with
      | nil => exact .ok ⟨hnode, .nil⟩
      | cons hparent hrest => exact .ok ⟨hparent, hrest⟩
    rw [if_neg hdot, if_neg hdot, if_neg hup, if_neg hup]
    by_cases hlong : maxNameBytes < (String.ofList part).utf8ByteSize
    · rw [if_pos hlong, if_pos hlong]
      exact .error _
    rw [if_neg hlong, if_neg hlong]
    have hfound := Node.rel_get? hnode (String.ofList part)
    generalize Slots.get? (String.ofList part) entries = found at hfound
    generalize Slots.get? (String.ofList part) entries' = found' at hfound
    cases hfound with
    | none => exact .error _
    | some hinner => exact .ok ⟨hinner, .cons hnode habove⟩

/-- So does a walk. -/
theorem endsAlike_walk (h : p.Relists q) (parts : List (List Char)) :
    EndsAlike Relists (p.walk parts) (q.walk parts) := by
  induction parts generalizing p q with
  | nil => exact .ok h
  | cons part parts ih => exact (endsAlike_step h part).bind fun _ _ hstep => ih hstep

end Place

namespace Files

/-- The files are the same, and every directory may be listed in an order of its own. -/
def Relists (f g : Files) : Prop := f.working.Relists g.working

variable {f g : Files}

theorem root_relists (h : f.Relists g) : f.root.Relists g.root := by
  refine ⟨?_, .nil⟩
  obtain ⟨⟨n, above⟩⟩ := f
  obtain ⟨⟨n', above'⟩⟩ := g
  obtain ⟨hnode, habove⟩ := h
  simp only [root] at hnode habove ⊢
  -- going up, the last directory is the root
  induction habove generalizing n n' with
  | nil => exact hnode
  | cons hup habove ih =>
    rw [List.getLast?_cons, List.getLast?_cons]
    exact ih _ _ hup

/-- What is found at a path differs in the orders only. -/
theorem endsAlike_find (h : f.Relists g) (path : String) :
    EndsAlike Node.Relists (f.find path) (g.find path) := by
  unfold find
  simp only
  by_cases hempty : path = ""
  · rw [if_pos hempty, if_pos hempty]
    exact .error _
  by_cases hlong : pathByteLimit ≤ path.utf8ByteSize
  · rw [if_neg hempty, if_neg hempty, if_pos hlong, if_pos hlong]
    exact .error _
  rw [if_neg hempty, if_neg hempty, if_neg hlong, if_neg hlong]
  have hfirst : (if Path.isAbsolute path.toList then f.root else f.working).Relists
      (if Path.isAbsolute path.toList then g.root else g.working) := by
    split
    · exact root_relists h
    · exact h
  exact (Place.endsAlike_walk hfirst (Path.steps path.toList)).map fun _ _ hplace => hplace.node

end Files

namespace Strategy

/-! ## Sorted names -/

/-- The names in ascending order. -/
def ascending (names : List String) : List String := names.mergeSort fun a b => decide (a ≤ b)

variable {names names' : List String}

theorem ascending_perm (names : List String) : (ascending names).Perm names :=
  List.mergeSort_perm _ _

theorem pairwise_ascending (names : List String) : (ascending names).Pairwise (· ≤ ·) := by
  have h : (ascending names).Pairwise fun a b => decide (a ≤ b) = true := by
    apply List.pairwise_mergeSort
    · intro a b c hab hbc
      rw [decide_eq_true_eq] at *
      exact String.le_trans hab hbc
    · intro a b
      rw [Bool.or_eq_true, decide_eq_true_eq, decide_eq_true_eq]
      exact String.le_total a b
  exact h.imp of_decide_eq_true

/-- There is one ascending order only. -/
theorem ascending_eq {sorted : List String} (h : sorted.Perm names)
    (hsorted : sorted.Pairwise (· ≤ ·)) : ascending names = sorted := by
  refine List.Perm.eq_of_pairwise ?_ (pairwise_ascending names) hsorted
    ((ascending_perm names).trans h.symm)
  intro a b _ _ hab hba
  exact String.le_antisymm hab hba

theorem ascending_of_perm (h : names.Perm names') : ascending names = ascending names' :=
  ascending_eq ((ascending_perm names').trans h.symm) (pairwise_ascending names')

/-- The bytes of different names increase. -/
theorem pairwise_bytes_ascending (h : names.Nodup) :
    (ascending names).Pairwise fun a b => bytes a < bytes b := by
  have hdistinct : (ascending names).Nodup := (ascending_perm names).nodup_iff.2 h
  refine ((pairwise_ascending names).and hdistinct).imp fun {a b} hab => ?_
  rw [← lt_iff_bytes_lt]
  by_contra hlt
  exact hab.2 (String.le_antisymm hab.1 hlt)

/-- Of all names, the `k` smallest ones are shown in the ascending order of their bytes, or all if
there are fewer, and the others come behind them. -/
structure ShowsSmallest (k : Nat) (names shown hidden : List String) : Prop where
  perm : (shown ++ hidden).Perm names
  length_eq : shown.length = min names.length k
  ordered : shown.Pairwise fun x y => bytes x < bytes y
  behind : ∀ x ∈ shown, ∀ y ∈ hidden, bytes x < bytes y

theorem showsSmallest_ascending (h : names.Nodup) (k : Nat) :
    ShowsSmallest k names ((ascending names).take k) ((ascending names).drop k) := by
  have hbytes := pairwise_bytes_ascending h
  rw [← List.take_append_drop k (ascending names), List.pairwise_append] at hbytes
  obtain ⟨hshown, -, hbehind⟩ := hbytes
  refine ⟨?_, ?_, hshown, hbehind⟩
  · rw [List.take_append_drop]
    exact ascending_perm names
  · rw [List.length_take, (ascending_perm names).length_eq, Nat.min_comm]

/-- The names that are shown are determined by this. -/
theorem ShowsSmallest.shown_eq {k : Nat} {shown hidden : List String}
    (h : ShowsSmallest k names shown hidden) : shown = (ascending names).take k := by
  have hle : ∀ x y : String, bytes x < bytes y → x ≤ y := fun x y hxy =>
    Std.le_of_lt ((lt_iff_bytes_lt x y).2 hxy)
  have hperm : (shown ++ ascending hidden).Perm names :=
    ((ascending_perm hidden).append_left shown).trans h.perm
  have hsorted : (shown ++ ascending hidden).Pairwise (· ≤ ·) :=
    List.pairwise_append.2 ⟨h.ordered.imp (hle _ _), pairwise_ascending hidden,
      fun x hx y hy => hle x y (h.behind x hx y ((ascending_perm hidden).mem_iff.1 hy))⟩
  have hlength := hperm.length_eq
  have hshown := h.length_eq
  rw [List.length_append] at hlength
  rw [ascending_eq hperm hsorted]
  rcases Nat.le_total k names.length with hk | hk
  · rw [List.take_left' (by omega)]
  · have hnone : ascending hidden = [] := List.eq_nil_of_length_eq_zero (by omega)
    rw [hnone, List.append_nil, List.take_of_length_le (by omega)]

/-! ## The text -/

/-- What is said of a directory all of whose names are read. -/
theorem listing_eq (path : String) (hcount : names.length ≤ maxEntries) :
    listing path names =
      if names = [] then "to add content to " ++ path ++ " first"
      else
        "any of the " ++ toString names.length ++ " files in directory (" ++
          ", ".intercalate (((ascending names).take maxShown).map quoted) ++
          (if maxShown < names.length then ", ..." else "") ++ ")" := by
  have hperm := ascending_perm names
  rw [listing, List.take_of_length_le hcount, ← ascending]
  cases hsorted : ascending names with
  | nil =>
    rw [hsorted] at hperm
    rw [if_pos hperm.symm.eq_nil]
  | cons name rest =>
    rw [hsorted] at hperm
    have hne : names ≠ [] := by
      rintro rfl
      cases hperm.eq_nil
    rw [if_neg hne, ← hperm.length_eq]

/-- The order of the names does not matter. -/
theorem listing_of_perm (path : String) (h : names.Perm names')
    (hcount : names.length ≤ maxEntries) : listing path names = listing path names' := by
  have hcount' : names'.length ≤ maxEntries := h.length_eq ▸ hcount
  have hempty : names = [] ↔ names' = [] := by
    rw [← List.length_eq_zero_iff, ← List.length_eq_zero_iff, h.length_eq]
  rw [listing_eq path hcount, listing_eq path hcount', ascending_of_perm h, h.length_eq]
  simp only [hempty]

/-! ## The strategy -/

variable {cx : Context} {path : String}

/-- What is found at the path decides what is said. -/
theorem generate_directoryListing_eq (hpath : cx.fields.get? .path = some path) :
    directoryListing.generate cx =
      match cx.host.files.find path with
      | .error fault => .inapplicable (.inaccessible path fault)
      | .ok .file => .finished []
      | .ok (.directory entries) =>
        .finished [⟨listing path (Slots.keys entries), "directory-listing", none⟩] := by
  refine (generate_of_field hpath).trans ?_
  rcases cx.host.files.find path with fault | n
  · rfl
  · cases n <;> rfl

/-- All entries of a directory are read if there are no more than are read at most. Then the same
is said of it in whatever order the system lists the entries of any directory. If there are entries,
their number is said, the smallest five names are shown, quoted and in the ascending order of their
bytes, or all if there are fewer, and there is a mark if not all are shown. -/
theorem generate_directoryListing {entries : Slots String Node}
    (hpath : cx.fields.get? .path = some path)
    (hfind : cx.host.files.find path = .ok (.directory entries))
    (hnames : (Slots.keys entries).Nodup) (hcount : entries.length ≤ 4096) :
    (∀ cx' : Context, cx'.fields.get? .path = some path → cx.host.files.Relists cx'.host.files →
      directoryListing.generate cx' = directoryListing.generate cx) ∧
    (entries = [] → directoryListing.generate cx =
      .finished [⟨"to add content to " ++ path ++ " first", "directory-listing", none⟩]) ∧
    (entries ≠ [] → ∃ shown hidden, ShowsSmallest 5 (Slots.keys entries) shown hidden ∧
      directoryListing.generate cx = .finished [⟨
        "any of the " ++ toString entries.length ++ " files in directory (" ++
          ", ".intercalate (shown.map quoted) ++ (if 5 < entries.length then ", ..." else "") ++
          ")", "directory-listing", none⟩]) := by
  have hlength : (Slots.keys entries).length = entries.length := List.length_map _
  have hread : (Slots.keys entries).length ≤ maxEntries := hlength ▸ hcount
  have hgenerate := generate_directoryListing_eq hpath
  rw [hfind] at hgenerate
  simp only at hgenerate
  refine ⟨?_, ?_, ?_⟩
  · intro cx' hpath' hrelists
    have hends := Files.endsAlike_find hrelists path
    rw [hfind] at hends
    rw [hgenerate, generate_directoryListing_eq hpath']
    generalize cx'.host.files.find path = found at hends
    cases hends with
    | ok hnode =>
      cases hnode with
      | directory hperm _ =>
        simp only
        rw [listing_of_perm path hperm hread]
  · rintro rfl
    rw [hgenerate, listing_eq path hread]
    rfl
  · intro hne
    have hne' : Slots.keys entries ≠ [] := fun h => hne (List.map_eq_nil_iff.1 h)
    refine ⟨_, _, showsSmallest_ascending hnames 5, ?_⟩
    rw [hgenerate, listing_eq path hread, if_neg hne', hlength]
    rfl

/-- Six files in two orders, and the five of them that are shown. -/
theorem generate_directoryListing_reversed :
    let entries : Slots String Node := ["f", "b", "é", "a", "d", "c"].map (·, .file)
    let opening (entries : Slots String Node) : Context :=
      { kind := .isADirectory, fields := Fields.empty.insert .path ".", symbols := {}
        knowledge := .standard, host := .ofVariables ⟨⟨.directory entries, []⟩⟩ [] }
    let cx := opening entries
    cx.fields.get? .path = some "." ∧ cx.host.files.find "." = .ok (.directory entries) ∧
      (Slots.keys entries).Nodup ∧ entries.length ≤ 4096 ∧
      directoryListing.generate (opening entries.reverse) = directoryListing.generate cx ∧
      directoryListing.generate cx = .finished
        [⟨"any of the 6 files in directory ('a', 'b', 'c', 'd', 'f', ...)", "directory-listing",
          none⟩] := by
  intro entries opening cx
  have hpath : cx.fields.get? .path = some "." := rfl
  have hfind : cx.host.files.find "." = .ok (.directory entries) := rfl
  have hnames : (Slots.keys entries).Nodup := by decide
  obtain ⟨horder, -, hshown⟩ := generate_directoryListing hpath hfind hnames (by decide)
  have hrelists : cx.host.files.Relists (opening entries.reverse).host.files :=
    ⟨Node.relists_of_perm entries.reverse_perm.symm hnames, .nil⟩
  obtain ⟨shown, hidden, hsmallest, htext⟩ := hshown (by decide)
  have hexpected : ShowsSmallest 5 (Slots.keys entries) ["a", "b", "c", "d", "f"] ["é"] :=
    ⟨by decide, by decide, by decide, by decide⟩
  rw [hsmallest.shown_eq, ← hexpected.shown_eq] at htext
  refine ⟨hpath, hfind, hnames, by decide, horder _ rfl hrelists, htext.trans ?_⟩
  exact congrArg (fun text => Outcome.finished [⟨text, "directory-listing", none⟩]) (by decide)

end Strategy

end ErrorHints
