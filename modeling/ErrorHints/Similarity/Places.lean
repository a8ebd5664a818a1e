import Std.Data.HashMap

/-!
# Where elements stand

An index of a sequence gives for each element the places at which it stands, in ascending
order, so that a search need not look at the other places.

Results:
* `mem_find_iff`, `ascending`: the places found under an element are its places, in order.
-/
namespace ErrorHints.Similarity

variable {α : Type} [DecidableEq α] [Hashable α]

/-- The places at which each element stands. -/
structure PlaceTable (α : Type) [DecidableEq α] [Hashable α] where
  byElement : Std.HashMap α (Array Nat) := ∅

namespace PlaceTable

/-- The places filed under an element. -/
def find (t : PlaceTable α) (x : α) : List Nat := (t.byElement.getD x #[]).toList

/-- File a place under an element, behind its other places. -/
def add (t : PlaceTable α) (x : α) (j : Nat) : PlaceTable α :=
  ⟨t.byElement.insert x ((t.byElement.getD x #[]).push j)⟩

/-- File the places of elements that stand at `j`, `j + 1`, … -/
def addAll (t : PlaceTable α) (j : Nat) : List α → PlaceTable α
  | [] => t
  | x :: xs => (t.add x j).addAll (j + 1) xs

/-- The table files the places of the sequence, in ascending order. -/
structure Indexes (t : PlaceTable α) (b : List α) : Prop where
  ascending : ∀ x, (t.find x).Pairwise (· < ·)
  mem_iff : ∀ x j, j ∈ t.find x ↔ b[j]? = some x

theorem find_add (t : PlaceTable α) (x y : α) (j : Nat) :
    (t.add x j).find y = if x = y then t.find y ++ [j] else t.find y := by
  by_cases h : x = y
  · subst h; simp [find, add]
  · simp [find, add, Std.HashMap.getD_insert, h]

theorem indexes_empty : Indexes ({} : PlaceTable α) [] where
  ascending x := by simp [find]
  mem_iff x j := by simp [find]

/-- A place behind all places of a sequence is filed last. -/
theorem Indexes.add {t : PlaceTable α} {b : List α} (h : t.Indexes b) (x : α) :
    (t.add x b.length).Indexes (b ++ [x]) where
  ascending y := by
    rw [find_add]
    split
    · refine List.pairwise_append.2 ⟨h.ascending y, List.pairwise_singleton _ _, ?_⟩
      intro i hi j hj
      rw [List.mem_singleton.1 hj]
      exact (List.getElem?_eq_some_iff.1 ((h.mem_iff y i).1 hi)).1
    · exact h.ascending y
  mem_iff y j := by
    have hb := h.mem_iff y j
    rw [find_add]
    rcases Nat.lt_trichotomy j b.length with hj | rfl | hj
    · rw [List.getElem?_append_left hj, ← hb]
      split
      · simp only [List.mem_append, List.mem_singleton, or_iff_left_iff_imp]; omega
      · rfl
    · rw [List.getElem?_concat_length, Option.some.injEq]
      rw [List.getElem?_eq_none (Nat.le_refl _)] at hb
      split <;> simp_all
    · rw [List.getElem?_eq_none (by simp; omega)]
      rw [List.getElem?_eq_none (by omega)] at hb
      split
      · simp only [List.mem_append, List.mem_singleton, hb, reduceCtorEq, iff_false, false_or]
        omega
      · simpa using hb

theorem Indexes.addAll {t : PlaceTable α} {b : List α} (h : t.Indexes b) (xs : List α) :
    (t.addAll b.length xs).Indexes (b ++ xs) := by
  induction xs generalizing t b with
  | nil => rwa [List.append_nil]
  | cons x xs ih =>
    have hx := ih (h.add x)
    rwa [List.append_assoc, List.length_append, List.length_singleton] at hx

end PlaceTable

/-- An index of a sequence. -/
structure Places (b : List α) where
  table : PlaceTable α
  indexes : table.Indexes b

namespace Places

variable {b : List α}

/-- The index of a sequence. -/
def of (b : List α) : Places b where
  table := PlaceTable.addAll {} 0 b
  indexes := PlaceTable.indexes_empty.addAll b

/-- The places at which an element stands. -/
def find (p : Places b) (x : α) : List Nat := p.table.find x

theorem ascending (p : Places b) (x : α) : (p.find x).Pairwise (· < ·) := p.indexes.ascending x

theorem mem_find_iff {p : Places b} {x : α} {j : Nat} : j ∈ p.find x ↔ b[j]? = some x :=
  p.indexes.mem_iff x j

end Places

end ErrorHints.Similarity
