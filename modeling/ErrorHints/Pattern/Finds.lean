import ErrorHints.Pattern.Automaton

/-!
# Finding a pattern again and again

A text is searched from left to right. Behind what is found the search goes on, so no character
belongs to two finds; what stands before a spot still counts when a pattern asks for a place there.
Replacing puts something in for each find and leaves what stands between them.

The groups of a pattern that is searched for in this way are numbered. Number 0 is all that is
found.

Results:
* `ahead_add`: going on from a spot ahead.
-/
namespace ErrorHints

namespace Spot

/-- The spot behind the character `c`, before `rest`. -/
def past (s : Spot) (c : Char) (rest : List Char) : Spot := ⟨s.before + 1, some c, rest⟩

/-- The spot `n` characters ahead, or the last one. -/
def ahead (s : Spot) : Nat → Spot
  | 0 => s
  | n + 1 =>
    match s.after with
    | [] => s
    | c :: rest => (s.past c rest).ahead n

/-- The first spot of a text. -/
def first (text : List Char) : Spot := ⟨0, none, text⟩

theorem ahead_succ {s : Spot} {c : Char} {rest : List Char} (h : s.after = c :: rest) (n : Nat) :
    s.ahead (n + 1) = (s.past c rest).ahead n := by
  simp [ahead, h]

theorem ahead_of_nil {s : Spot} (h : s.after = []) (n : Nat) : s.ahead n = s := by
  cases n <;> simp [ahead, h]

theorem ahead_add (s : Spot) (m n : Nat) : s.ahead (m + n) = (s.ahead m).ahead n := by
  induction m generalizing s with
  | zero => rw [Nat.zero_add]; rfl
  | succ m ih =>
    cases h : s.after with
    | nil => rw [ahead_of_nil h, ahead_of_nil h, ahead_of_nil h]
    | cons c rest => rw [Nat.add_right_comm, ahead_succ h, ahead_succ h, ih]

theorem after_ahead (s : Spot) (n : Nat) : (s.ahead n).after = s.after.drop n := by
  induction n generalizing s with
  | zero => rfl
  | succ n ih =>
    cases h : s.after with
    | nil => rw [ahead_of_nil h, h]; rfl
    | cons c rest => rw [ahead_succ h, ih]; rfl

theorem before_ahead {s : Spot} {n : Nat} (h : n ≤ s.after.length) :
    (s.ahead n).before = s.before + n := by
  induction n generalizing s with
  | zero => rfl
  | succ n ih =>
    cases hs : s.after with
    | nil => rw [hs] at h; exact absurd h (by simp)
    | cons c rest =>
      rw [hs, List.length_cons, Nat.add_le_add_iff_right] at h
      rw [ahead_succ hs, ih h]
      show s.before + 1 + n = s.before + (n + 1)
      omega

theorem after_ahead_append {s : Spot} {x y : List Char} (h : s.after = x ++ y) :
    (s.ahead x.length).after = y := by
  rw [after_ahead, h, List.drop_left]

theorem before_ahead_append {s : Spot} {x y : List Char} (h : s.after = x ++ y) :
    (s.ahead x.length).before = s.before + x.length :=
  before_ahead (by rw [h, List.length_append]; exact Nat.le_add_right _ _)

end Spot

/-- What is found of a pattern. -/
structure Find where
  /-- The captured parts, the latest first. -/
  parts : List (Capture Nat)
  /-- The spot behind it. -/
  stop : Spot

/-- The characters captured under a number. -/
def Find.part? (f : Find) (n : Nat) : Option (List Char) :=
  (f.parts.find? (·.name = n)).map Capture.chars

namespace Automaton

/-- What is found from a spot on by the automaton of a pattern that captures all it reads. That
capture is the latest one: it starts somewhere ahead and stops where the search goes on. -/
def find? (a : Automaton Nat) (s : Spot) : Option Find :=
  match a.run none [] s.before s.last s.after with
  | some (whole :: parts) =>
    some ⟨parts, s.ahead (s.after.length - whole.start.length + whole.length)⟩
  | _ => none

/-- Everything found from a spot on, one find behind the other. A find without a character would
be the last one. -/
def findsFrom (a : Automaton Nat) (s : Spot) : List Find :=
  match a.find? s with
  | none => []
  | some f => f :: if f.stop.after.length < s.after.length then a.findsFrom f.stop else []
termination_by s.after.length

end Automaton

/-- Everything found of a pattern in a text, from left to right. -/
def Pattern.finds (p : Pattern Nat) (text : List Char) : List Find :=
  (group 0 p).automaton.findsFrom (.first text)

/-! ## Replacing -/

/-- What stands before a find, if number 0 of its parts is all that is found. -/
def Find.gap (f : Find) (rest : List Char) : List Char :=
  match f.parts.find? (·.name = 0) with
  | some whole => rest.take (rest.length - whole.start.length)
  | none => []

/-- The rest of a text with `put` in place of the finds in it. -/
def replaced (put : Find → List Char) (rest : List Char) : List Find → List Char
  | [] => rest
  | f :: fs => f.gap rest ++ put f ++ replaced put f.stop.after fs

/-- A text with `put` in place of everything found of a pattern. -/
def Pattern.replaceAll (p : Pattern Nat) (put : Find → List Char) (text : List Char) : List Char :=
  replaced put text ((group 0 p).finds text)

end ErrorHints
