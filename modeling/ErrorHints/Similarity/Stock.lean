import Std.Data.HashMap

/-!
# Stocks of elements

A stock holds how many of each element are left. It is filled from one sequence and served
from while another one is read, so that no element is used more often than it is there.

Results:
* `left_of`: a stock filled from a sequence holds each element as often as it occurs there.
-/
namespace ErrorHints.Similarity

variable {α : Type} [DecidableEq α] [Hashable α]

/-- How many of each element are left. -/
structure Stock (α : Type) [DecidableEq α] [Hashable α] where
  byElement : Std.HashMap α Nat := ∅

namespace Stock

/-- How many of `x` are left. -/
def left (s : Stock α) (x : α) : Nat := s.byElement.getD x 0

/-- Put one `x` in. -/
def put (s : Stock α) (x : α) : Stock α := ⟨s.byElement.insert x (s.left x + 1)⟩

/-- Serve one `x`. -/
def serve (s : Stock α) (x : α) : Stock α := ⟨s.byElement.insert x (s.left x - 1)⟩

/-- The stock of the elements of a sequence. -/
def of (b : List α) : Stock α := b.foldl put {}

theorem left_put (s : Stock α) (x y : α) :
    (s.put x).left y = if x = y then s.left y + 1 else s.left y := by
  by_cases h : x = y
  · subst h; simp [left, put]
  · simp [left, put, Std.HashMap.getD_insert, h]

theorem left_serve (s : Stock α) (x y : α) :
    (s.serve x).left y = if x = y then s.left y - 1 else s.left y := by
  by_cases h : x = y
  · subst h; simp [left, serve]
  · simp [left, serve, Std.HashMap.getD_insert, h]

theorem left_foldl_put (b : List α) (s : Stock α) (y : α) :
    (b.foldl put s).left y = s.left y + b.count y := by
  induction b generalizing s with
  | nil => simp
  | cons x b ih =>
    rw [List.foldl_cons, ih, left_put, List.count_cons]
    by_cases h : x = y
    · simp [h]; omega
    · simp [h]

/-- Each element is there as often as in the sequence that the stock was filled from. -/
theorem left_of (b : List α) (y : α) : (of b).left y = b.count y := by
  rw [of, left_foldl_put]
  simp [left]

end Stock

end ErrorHints.Similarity
