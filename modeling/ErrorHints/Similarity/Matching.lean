import ErrorHints.Proofs.Similarity.LongestBlock
import ErrorHints.Similarity.Score
import ErrorHints.Similarity.Stock

/-!
# How much two sequences have in common

The longest common block is taken, then the longest ones before and after it,
and so on; `matchedCount` is the number of elements in all of these blocks. The
windows still to be searched stand on a stack. Each search replaces a window by
at most two smaller ones, so the stack runs out.

`sharedCount` counts what the two sequences share if order is forgotten: a stock of
the one serves the elements of the other. `shorterLength` is the length of the shorter
one. Both are cheaper to find.

Results:
* `weight_around_lt`: the windows around a block weigh less than the one searched.
-/
namespace ErrorHints.Similarity

/-- The windows left to search around a block, as they come to stand on the stack. -/
def Window.around (w : Window) (m : Block) : List Window :=
  [w.after m, w.before m].filter fun part => !part.isEmpty

/-- Bound on the number of searches that the windows of a list lead to. -/
def weight : List Window → Nat
  | [] => 0
  | w :: rest => 2 * w.span + 1 + weight rest

theorem weight_append (us vs : List Window) : weight (us ++ vs) = weight us + weight vs := by
  induction us with
  | nil => simp [weight]
  | cons u us ih => simp only [List.cons_append, weight, ih]; omega

/-- The windows around a block weigh less than the window it was found in. -/
theorem weight_around_lt {w : Window} {m : Block} (h : m.Inside w) (hs : m.size ≠ 0) :
    weight (w.around m) < 2 * w.span + 1 := by
  obtain ⟨h1, h2, h3, h4⟩ := h
  simp only [Window.around, List.filter_cons, List.filter_nil]
  repeat' split
  all_goals simp only [weight, Window.span, Window.before, Window.after]; omega

variable {α : Type} [DecidableEq α]

section

variable [Hashable α]

/-- `total` and the sizes of all blocks found in the `pending` windows and
around those blocks. -/
def matchedIn (a : List α) {b : List α} (places : Places b) (pending : List Window)
    (total : Nat) : Nat :=
  match pending with
  | [] => total
  | w :: rest =>
    let m := longestBlock a places w
    if m.size = 0 then matchedIn a places rest total
    else matchedIn a places (w.around m ++ rest) (total + m.size)
termination_by weight pending
decreasing_by
  · simp only [weight]; omega
  · rename_i hm
    rw [weight_append, weight]
    have := weight_around_lt (longestBlock_inside a places w hm) hm
    omega

/-- The number of elements in the common blocks of `a` and `b`. -/
def matchedCount (a b : List α) : Nat := matchedIn a (.of b) [.whole a b] 0

/-- `total` and the number of elements that the stock serves, one after the other. -/
def servedIn (stock : Stock α) : (a : List α) → (total : Nat) → Nat
  | [], total => total
  | x :: a, total =>
    if stock.left x = 0 then servedIn stock a total else servedIn (stock.serve x) a (total + 1)

/-- How many elements of `a` can be paired off with equal elements of `b`. -/
def sharedCount (a b : List α) : Nat := servedIn (.of b) a 0

end

/-- The length of the shorter sequence. -/
def shorterLength (a b : List α) : Nat := min a.length b.length

/-! ## Ratios -/

/-- How alike two sequences are: the share of their elements in common blocks. -/
def ratio [Hashable α] (a b : List α) : Score := .ofCounts (matchedCount a b) (a.length + b.length)

/-- Bound on the ratio that forgets the order of the elements. -/
def sharedRatio [Hashable α] (a b : List α) : Score :=
  .ofCounts (sharedCount a b) (a.length + b.length)

/-- Bound on the ratio from the lengths alone. -/
def lengthRatio (a b : List α) : Score := .ofCounts (shorterLength a b) (a.length + b.length)

-- characters are hashed by their code, whatever other ways are known
attribute [local instance (high)] instHashableChar

/-- How alike two texts are, character by character. -/
def similarity (a b : String) : Score := ratio a.toList b.toList

end ErrorHints.Similarity
