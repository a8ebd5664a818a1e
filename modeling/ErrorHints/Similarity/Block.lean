import ErrorHints.Similarity.Places

/-!
# The longest common block of two windows

Two sequences are compared inside a window: a range of each. The search walks
the rows of the first range. For every place of the second range at which the
element of the row stands it keeps the length of the common run that ends there;
the next row follows from the last one alone. A run is taken as the new best only
if it is strictly longer, so of several longest blocks the one that starts
earliest in the first sequence, then earliest in the second, is found.
-/
namespace ErrorHints.Similarity

/-! ## Blocks and windows -/

/-- `size` elements that two sequences share, from `aStart` and `bStart` on. -/
structure Block where
  aStart : Nat
  bStart : Nat
  size : Nat
  deriving DecidableEq, Repr, Inhabited

/-- The block of a given size whose last elements stand at `i` and at `j`. -/
def Block.endingAt (i j size : Nat) : Block := ⟨i + 1 - size, j + 1 - size, size⟩

/-- A range of each of two sequences; the upper ends are excluded. -/
structure Window where
  aLo : Nat
  aHi : Nat
  bLo : Nat
  bHi : Nat
  deriving DecidableEq, Repr, Inhabited

namespace Window

/-- All of both sequences. -/
def whole {α : Type} (a b : List α) : Window := ⟨0, a.length, 0, b.length⟩

/-- Whether one of the ranges is empty. -/
def isEmpty (w : Window) : Bool := w.aHi ≤ w.aLo || w.bHi ≤ w.bLo

/-- Number of places in both ranges. -/
def span (w : Window) : Nat := (w.aHi - w.aLo) + (w.bHi - w.bLo)

/-- What lies before a block in both ranges. -/
def before (w : Window) (m : Block) : Window := ⟨w.aLo, m.aStart, w.bLo, m.bStart⟩

/-- What lies after a block in both ranges. -/
def after (w : Window) (m : Block) : Window :=
  ⟨m.aStart + m.size, w.aHi, m.bStart + m.size, w.bHi⟩

/-- The elements of the first range. -/
def aPart {α : Type} (w : Window) (a : List α) : List α := (a.take w.aHi).drop w.aLo

/-- The elements of the second range. -/
def bPart {α : Type} (w : Window) (b : List α) : List α := (b.take w.bHi).drop w.bLo

end Window

/-- The block lies inside the window. -/
def Block.Inside (m : Block) (w : Window) : Prop :=
  w.aLo ≤ m.aStart ∧ m.aStart + m.size ≤ w.aHi ∧ w.bLo ≤ m.bStart ∧ m.bStart + m.size ≤ w.bHi

/-! ## Runs -/

/-- The lengths of the common runs that end in one row, by the place of the second
sequence at which they end. -/
structure Runs where
  byEnd : Std.HashMap Nat Nat := ∅

namespace Runs

/-- The length of the run that ends at `j`. -/
def find (r : Runs) (j : Nat) : Nat := r.byEnd.getD j 0

/-- The length of the run that ends one place before `j`. -/
def findBefore (r : Runs) : Nat → Nat
  | 0 => 0
  | j + 1 => r.find j

def set (r : Runs) (j size : Nat) : Runs := ⟨r.byEnd.insert j size⟩

@[simp]
theorem find_empty (j : Nat) : Runs.find {} j = 0 := by simp [find]

theorem find_set (r : Runs) (j k size : Nat) :
    (r.set j size).find k = if j = k then size else r.find k := by
  simp [find, set, Std.HashMap.getD_insert]

end Runs

/-! ## The search -/

/-- Extend the runs of the row `above` to row `i`, whose element stands at the places `js` of
the second sequence, as far as they are in the window. -/
def scanRow (w : Window) (i : Nat) (above : Runs) :
    (js : List Nat) → (runs : Runs) → (best : Block) → Runs × Block
  | [], runs, best => (runs, best)
  | j :: js, runs, best =>
    if j < w.bLo then scanRow w i above js runs best
    else if w.bHi ≤ j then (runs, best)
    else
      let size := above.findBefore j + 1
      scanRow w i above js (runs.set j size)
        (if best.size < size then .endingAt i j size else best)

variable {α : Type} [DecidableEq α] [Hashable α] {b : List α}

/-- Walk the rows `xs`, the first of which is `i`. -/
def searchRows (places : Places b) (w : Window) :
    (i : Nat) → (xs : List α) → (above : Runs) → (best : Block) → Block
  | _, [], _, best => best
  | i, x :: xs, above, best =>
    let row := scanRow w i above (places.find x) {} best
    searchRows places w (i + 1) xs row.1 row.2

/-- The longest block that `a` and the indexed sequence share inside `w`, the earliest
in `a` and then in the other of several; of size 0 at the lower corner if there is none. -/
def longestBlock (a : List α) (places : Places b) (w : Window) : Block :=
  searchRows places w w.aLo (w.aPart a) {} ⟨w.aLo, w.bLo, 0⟩

end ErrorHints.Similarity
