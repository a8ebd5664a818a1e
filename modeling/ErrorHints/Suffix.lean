import ErrorHints.Candidate
import ErrorHints.Distinct

/-!
# The suffix that a report receives

`compose` turns candidates into `. Did you mean a, b?`: each text once, in
order of first occurrence, at most as many as the cap allows. `strip` takes a
suffix out of a text again: at the end if it stands there, else at its first
occurrence.

Results:
* `compose_eq_empty_iff`: the suffix is empty exactly if nothing is shown.
* `strip_append`: stripping undoes appending.
-/
namespace ErrorHints.Suffix

/-! ## Composing -/

/-- The texts shown: each once, first occurrence first, at most `limit`. -/
def shown (texts : List String) (limit : Option Nat) : List String :=
  match limit with
  | none => distinct texts
  | some n => (distinct texts).take n

/-- `. Did you mean a, b?`, or nothing when no text is shown. -/
def compose (texts : List String) (limit : Option Nat) : String :=
  match shown texts limit with
  | [] => ""
  | t :: ts => ". Did you mean " ++ ", ".intercalate (t :: ts) ++ "?"

@[simp]
theorem compose_nil (limit : Option Nat) : compose [] limit = "" := by
  cases limit <;> simp [compose, shown, distinct]

/-- Something is shown unless there is no text or the cap is zero. -/
theorem shown_eq_nil_iff (texts : List String) (limit : Option Nat) :
    shown texts limit = [] ↔ texts = [] ∨ limit = some 0 := by
  unfold shown
  cases limit with
  | none => simp [distinct_eq_nil_iff]
  | some n => simp [List.take_eq_nil_iff, distinct_eq_nil_iff, or_comm]

/-- A suffix that is not empty, by what it shows. -/
theorem compose_eq {texts : List String} {limit : Option Nat} (h : compose texts limit ≠ "") :
    compose texts limit = ". Did you mean " ++ ", ".intercalate (shown texts limit) ++ "?" := by
  unfold compose at h ⊢
  cases hs : shown texts limit with
  | nil =>
    rw [hs] at h
    exact absurd rfl h
  | cons t ts => rfl

/-- A suffix is never empty by its wording. -/
theorem compose_eq_empty_iff (texts : List String) (limit : Option Nat) :
    compose texts limit = "" ↔ texts = [] ∨ limit = some 0 := by
  rw [← shown_eq_nil_iff]
  unfold compose
  cases shown texts limit with
  | nil => simp
  | cons t ts => simp [← String.toList_inj]

/-! ## Stripping -/

/-- `t` without the first occurrence of `s`; `t` itself when there is none. -/
def removeFirst (s : List Char) : List Char → List Char
  | [] => []
  | c :: cs => if s.isPrefixOf (c :: cs) then (c :: cs).drop s.length else c :: removeFirst s cs

/-- `t` without `s`: at the end if `s` stands there, else at its first occurrence. -/
def stripChars (t s : List Char) : List Char :=
  if s.isSuffixOf t then t.take (t.length - s.length) else removeFirst s t

/-- Take `suffix` out of `text` once. -/
def strip (text suffix : String) : String :=
  String.ofList (stripChars text.toList suffix.toList)

theorem stripChars_append (t s : List Char) : stripChars (t ++ s) s = t := by
  simp [stripChars]

theorem strip_append (text suffix : String) : strip (text ++ suffix) suffix = text := by
  simp [strip, stripChars_append]

end ErrorHints.Suffix
