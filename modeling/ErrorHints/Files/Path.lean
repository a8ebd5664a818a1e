/-!
# Paths

A path is a text; slashes divide it into parts. `steps` are the parts that a
walk along the path takes. `parent?` cuts off the last part by the text alone:
empty parts and `.` parts at the end do not count, and whatever stands before
them stays as it is written.

Results:
* `notMem_of_mem_parts`: no part holds a slash.
* `intercalate_parts`: the parts make up the path.
-/
namespace ErrorHints.Path

/-! ## Parts -/

/-- What stands between the slashes of a path. -/
def parts : List Char → List (List Char)
  | [] => [[]]
  | c :: cs =>
    match parts cs with
    | [] => [[c]]
    | p :: ps => if c = '/' then [] :: p :: ps else (c :: p) :: ps

theorem parts_ne_nil (cs : List Char) : parts cs ≠ [] := by
  cases cs with
  | nil => simp [parts]
  | cons c cs =>
    simp only [parts]
    split
    · simp
    · split <;> simp

theorem notMem_of_mem_parts {cs p : List Char} (h : p ∈ parts cs) : '/' ∉ p := by
  induction cs generalizing p with
  | nil => simp [parts] at h; simp [h]
  | cons c cs ih =>
    simp only [parts] at h
    split at h
    · rename_i e; exact absurd e (parts_ne_nil cs)
    · rename_i q qs e
      have hq := ih (e ▸ List.mem_cons_self : q ∈ parts cs)
      split at h
      · rcases List.mem_cons.1 h with rfl | h
        · simp
        · exact ih (e ▸ h)
      · rename_i hc
        rcases List.mem_cons.1 h with rfl | h
        · simp [hq, Ne.symm hc]
        · exact ih (e ▸ List.mem_cons_of_mem _ h)

theorem intercalate_parts (cs : List Char) : ['/'].intercalate (parts cs) = cs := by
  induction cs with
  | nil => simp [parts]
  | cons c cs ih =>
    simp only [parts]
    split
    · rename_i e; exact absurd e (parts_ne_nil cs)
    · rename_i p ps e
      rw [e] at ih
      split
      · rename_i hc
        subst hc
        simpa [List.intercalate, List.intersperse] using ih
      · cases ps with
        | nil => simpa [List.intercalate, List.intersperse] using ih
        | cons q qs => simpa [List.intercalate, List.intersperse] using ih

/-- Whether a path starts at the root. -/
def isAbsolute (path : List Char) : Bool := path.head? == some '/'

/-- The parts that a walk takes. A slash at the end asks for a directory, as a
last part `.` does. -/
def steps (path : List Char) : List (List Char) :=
  (parts path).filter (· ≠ []) ++ if path.getLast? = some '/' then [['.']] else []

/-! ## The parent by name -/

/-- A reversed path without the empty parts and `.` parts at its end. -/
def dropBlankParts : List Char → List Char
  | '/' :: r => dropBlankParts r
  | '.' :: '/' :: r => dropBlankParts r
  | ['.'] => []
  | r => r

/-- What comes before the first part that may be cut off: the root, or a `.` that
the path starts with. -/
def start : List Char → List Char
  | '/' :: _ => ['/']
  | ['.'] => ['.']
  | '.' :: '/' :: _ => ['.']
  | _ => []

/-- The path without its last part; nothing if no part or no path is left. -/
def parent? (path : List Char) : Option (List Char) :=
  let front := start path
  match dropBlankParts (path.drop front.length).reverse with
  | [] => none
  | body =>
    match front ++ (dropBlankParts ((body.dropWhile (· ≠ '/')).drop 1)).reverse with
    | [] => none
    | parent => some parent

end ErrorHints.Path
