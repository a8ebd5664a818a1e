/-!
# Dotted names

A dotted name such as `package.module.function` is a path of segments. What is
looked up in a table or in the exports of a parent is its last segment, the
leaf.

Results:
* `splitChars?_eq_some_iff`: a name splits at its last dot and nowhere else.
-/
namespace ErrorHints.DottedName

/-- What comes before the last dot and what follows it. -/
def splitChars? : List Char → Option (List Char × List Char)
  | [] => none
  | c :: cs =>
    match splitChars? cs with
    | some (parent, leaf) => some (c :: parent, leaf)
    | none => if c = '.' then some ([], cs) else none

theorem splitChars?_eq_none_iff (cs : List Char) : splitChars? cs = none ↔ '.' ∉ cs := by
  induction cs with
  | nil => simp [splitChars?]
  | cons c cs ih =>
    simp only [splitChars?]
    cases h : splitChars? cs with
    | some pair =>
      have : '.' ∈ cs := Classical.not_not.1 fun e => by simp [ih.2 e] at h
      simp [this]
    | none =>
      have := ih.1 h
      by_cases hc : c = '.'
      · simp [hc]
      · simp [hc, this, Ne.symm hc]

theorem splitChars?_append (parent leaf : List Char) (h : '.' ∉ leaf) :
    splitChars? (parent ++ '.' :: leaf) = some (parent, leaf) := by
  induction parent with
  | nil => simp [splitChars?, (splitChars?_eq_none_iff leaf).2 h]
  | cons c cs ih => simp [splitChars?, ih]

theorem eq_of_splitChars? {cs parent leaf : List Char} (h : splitChars? cs = some (parent, leaf)) :
    cs = parent ++ '.' :: leaf ∧ '.' ∉ leaf := by
  induction cs generalizing parent with
  | nil => simp [splitChars?] at h
  | cons c cs ih =>
    simp only [splitChars?] at h
    split at h
    · rename_i p l e
      cases h
      obtain ⟨rfl, hl⟩ := ih e
      exact ⟨rfl, hl⟩
    · rename_i e
      split at h
      · rename_i hc
        cases h
        exact ⟨by rw [hc]; rfl, (splitChars?_eq_none_iff _).1 e⟩
      · cases h

/-- A name splits at its last dot. -/
theorem splitChars?_eq_some_iff {cs parent leaf : List Char} :
    splitChars? cs = some (parent, leaf) ↔ cs = parent ++ '.' :: leaf ∧ '.' ∉ leaf :=
  ⟨eq_of_splitChars?, fun ⟨e, h⟩ => e ▸ splitChars?_append parent leaf h⟩

/-- What follows the last dot; the whole name when it has none. -/
def leafChars (cs : List Char) : List Char :=
  match splitChars? cs with
  | some (_, leaf) => leaf
  | none => cs

/-- The last segment of a name. -/
def leaf (name : String) : String := String.ofList (leafChars name.toList)

/-- The name before the last dot and the last segment; nothing without a dot. -/
def split? (name : String) : Option (String × String) :=
  (splitChars? name.toList).map fun (parent, leaf) => (String.ofList parent, String.ofList leaf)

end ErrorHints.DottedName
