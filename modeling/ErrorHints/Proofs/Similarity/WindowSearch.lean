import ErrorHints.Proofs.Similarity.Bounds

/-!
# The search in a window

A search is given a window that lies in both sequences. The block found lies in the window and
holds the same elements in both, no such block is longer, and none of the same length comes
earlier. Where nothing is in common the block is empty and stands at the lower corner, which is
earlier than any other place of the window.

A run that ends in some row and at some place is no longer than there are rows and places up to
there. So a block starts where its differences say: a search that fails as soon as a difference
would be below zero finds the same block.

Results:
* `common_iff_holdsSame`: the common blocks of a window are those that hold the same elements.
* `scanRow?_eq`, `searchRows?_eq`: the runs are short enough for every difference that is taken.
* `longestBlock_spec`: what a search finds, and that it takes no difference below zero.
-/
namespace ErrorHints.Similarity

variable {α : Type} {a b : List α} {w : Window} {m m' : Block}

/-! ## Blocks of a window -/

/-- The bounds of the window are in order, and they are bounds of places of the sequences. -/
structure Window.Within (w : Window) (a b : List α) : Prop where
  aLo_le : w.aLo ≤ w.aHi
  aHi_le : w.aHi ≤ a.length
  bLo_le : w.bLo ≤ w.bHi
  bHi_le : w.bHi ≤ b.length

/-- The sequences have the same elements where the block stands. -/
def Block.HoldsSame (m : Block) (a b : List α) : Prop :=
  (a.drop m.aStart).take m.size = (b.drop m.bStart).take m.size

/-- The block is the longest of those in the window that hold the same elements, and the first of
several. It is empty exactly if the parts that the window shows have no element in common. -/
structure Block.IsFirstLongestIn (m : Block) (w : Window) (a b : List α) : Prop where
  inside : m.Inside w
  holdsSame : m.HoldsSame a b
  longest : ∀ m' : Block, m'.Inside w → m'.HoldsSame a b → m'.size ≤ m.size
  first : ∀ m' : Block, m'.Inside w → m'.HoldsSame a b → m'.size = m.size → m.NotLater m'
  size_eq_zero_iff : m.size = 0 ↔ ∀ x ∈ w.aPart a, x ∉ w.bPart b

/-- In a window, the common blocks are those that hold the same elements. -/
theorem common_iff_holdsSame (hw : w.Within a b) (hm : m.Inside w) :
    m.Common (w.Hits a b) ↔ m.HoldsSame a b := by
  obtain ⟨haLo, haHi, hbLo, hbHi⟩ := hm
  constructor
  · intro h
    exact take_drop_eq_of_common fun t ht => (h t ht).2.2
  · intro h t ht
    have ha : m.aStart + t < a.length := by
      have := hw.aHi_le
      omega
    have hget := congrArg (·[t]?) h
    simp only [List.getElem?_take, List.getElem?_drop, if_pos ht] at hget
    rw [List.getElem?_eq_getElem ha] at hget
    exact ⟨by omega, by omega, _, List.getElem?_eq_getElem ha, hget.symm⟩

/-! ## The best block -/

/-- The second block is the first one, or it is longer. -/
def Block.KeptOrLonger (m m' : Block) : Prop := m' = m ∨ m.size < m'.size

theorem Block.KeptOrLonger.trans {m m' m'' : Block} (h : m.KeptOrLonger m')
    (h' : m'.KeptOrLonger m'') : m.KeptOrLonger m'' := by
  rcases h with rfl | h
  · exact h'
  · rcases h' with rfl | h'
    · exact .inr h
    · exact .inr (Nat.lt_trans h h')

/-- Scanning a row keeps the best block, or it finds a longer one. -/
theorem keptOrLonger_scanRow (w : Window) (i : Nat) (above : Runs) (js : List Nat) (runs : Runs)
    (best : Block) : best.KeptOrLonger (scanRow w i above js runs best).2 := by
  fun_induction scanRow w i above js runs best with
  | case1 runs best => exact .inl rfl
  | case2 j js runs best hlo ih => exact ih
  | case3 j js runs best hlo hhi => exact .inl rfl
  | case4 j js runs best hlo hhi size ih =>
    refine .trans ?_ ih
    split
    · rename_i hlonger
      exact .inr hlonger
    · exact .inl rfl

section

variable [DecidableEq α] [Hashable α]

theorem keptOrLonger_searchRows (places : Places b) (w : Window) (i : Nat) (xs : List α)
    (above : Runs) (best : Block) : best.KeptOrLonger (searchRows places w i xs above best) := by
  induction xs generalizing i above best with
  | nil => exact .inl rfl
  | cons x xs ih => exact (keptOrLonger_scanRow w i above (places.find x) {} best).trans (ih _ _ _)

/-- If nothing is found, the empty block at the lower corner is left. -/
theorem longestBlock_of_size_eq_zero (a : List α) (places : Places b) (w : Window)
    (h : (longestBlock a places w).size = 0) : longestBlock a places w = ⟨w.aLo, w.bLo, 0⟩ := by
  have hbest : Block.KeptOrLonger ⟨w.aLo, w.bLo, 0⟩ (longestBlock a places w) :=
    keptOrLonger_searchRows places w w.aLo (w.aPart a) {} _
  rcases hbest with hkept | hlonger
  · exact hkept
  · rw [h] at hlonger
    exact absurd hlonger (Nat.lt_irrefl 0)

/-- The block found is empty exactly if the parts of the sequences have no element in common. -/
theorem size_longestBlock_eq_zero_iff (a : List α) (places : Places b) (w : Window) :
    (longestBlock a places w).size = 0 ↔ ∀ x ∈ w.aPart a, x ∉ w.bPart b := by
  have hshift := isFirstLongest_shift (isFirstLongest_longestCommon (w.aPart a) (w.bPart b))
  have hsize := (isFirstLongest_longestBlock a places w).size_eq hshift
  have hcommon : (longestCommon (w.aPart a) (w.bPart b)).size = 0 ↔
      ¬ ∃ x ∈ w.aPart a, x ∈ w.bPart b :=
    not_ne_iff.symm.trans longestCommon_size_ne_zero_iff.not
  rw [hsize]
  refine hcommon.trans ?_
  simp only [not_exists, not_and]

/-- Of the blocks of the window that hold the same elements, the search finds the longest, and the
first of several. -/
theorem isFirstLongestIn_longestBlock (places : Places b) (hw : w.Within a b) :
    (longestBlock a places w).IsFirstLongestIn w a b := by
  have hfirst := isFirstLongest_longestBlock a places w
  have hcorner := longestBlock_of_size_eq_zero a places w
  have hinside : (longestBlock a places w).Inside w := by
    by_cases hs : (longestBlock a places w).size = 0
    · rw [hcorner hs]
      exact ⟨Nat.le_refl _, hw.aLo_le, Nat.le_refl _, hw.bLo_le⟩
    · exact longestBlock_inside a places w hs
  have hbeats : ∀ m' : Block, m'.Inside w → m'.HoldsSame a b → m'.size ≠ 0 →
      (longestBlock a places w).Beats m' := fun m' hm' hsame hs =>
    hfirst.beats m' ((common_iff_holdsSame hw hm').2 hsame) hs
  refine ⟨hinside, (common_iff_holdsSame hw hinside).1 hfirst.common, ?_, ?_,
    size_longestBlock_eq_zero_iff a places w⟩
  · intro m' hm' hsame
    by_cases hs : m'.size = 0
    · omega
    · have := hbeats m' hm' hsame hs
      unfold Block.Beats at this
      omega
  · intro m' hm' hsame heq
    by_cases hs : m'.size = 0
    · -- no place of the window is earlier than the corner
      rw [hcorner (heq ▸ hs)]
      unfold Block.Inside at hm'
      unfold Block.NotLater
      simp only
      omega
    · have := hbeats m' hm' hsame hs
      unfold Block.Beats at this
      unfold Block.NotLater
      omega

end

/-! ## Differences -/

/-- The difference of two numbers, unless it is below zero. -/
def difference? (m n : Nat) : Option Nat := if n ≤ m then some (m - n) else none

/-- The block of a given size whose last elements stand at `i` and at `j`, if it has room there. -/
def Block.endingAt? (i j size : Nat) : Option Block := do
  let aStart ← difference? (i + 1) size
  let bStart ← difference? (j + 1) size
  return ⟨aStart, bStart, size⟩

theorem Block.endingAt?_eq {i j size : Nat} (hi : size ≤ i + 1) (hj : size ≤ j + 1) :
    Block.endingAt? i j size = some (.endingAt i j size) := by
  rw [endingAt?, difference?, difference?, if_pos hi, if_pos hj]
  rfl

/-- The best block after a run of a given size that ends at `i` and at `j`. -/
def Block.after? (best : Block) (i j size : Nat) : Option Block :=
  if best.size < size then Block.endingAt? i j size else some best

theorem Block.after?_eq {i j size : Nat} (best : Block) (hi : size ≤ i + 1) (hj : size ≤ j + 1) :
    best.after? i j size = some (if best.size < size then .endingAt i j size else best) := by
  rw [after?, endingAt?_eq hi hj]
  split <;> rfl

/-- Scan a row, and fail if a difference would be below zero. -/
def scanRow? (w : Window) (i : Nat) (above : Runs) :
    (js : List Nat) → (runs : Runs) → (best : Block) → Option (Runs × Block)
  | [], runs, best => some (runs, best)
  | j :: js, runs, best =>
    if j < w.bLo then scanRow? w i above js runs best
    else if w.bHi ≤ j then some (runs, best)
    else do
      let size := above.findBefore j + 1
      let best ← best.after? i j size
      scanRow? w i above js (runs.set j size) best

/-- The runs that end before row `i` are no longer than there are rows and places before. -/
def Runs.HaveRoom (i : Nat) (r : Runs) : Prop := ∀ j, r.find j ≤ i ∧ r.find j ≤ j + 1

theorem Runs.haveRoom_empty (i : Nat) : Runs.HaveRoom i {} := by
  intro j
  rw [find_empty]
  exact ⟨Nat.zero_le _, Nat.zero_le _⟩

variable {i : Nat} {above runs : Runs}

theorem Runs.HaveRoom.findBefore (h : above.HaveRoom i) (j : Nat) :
    above.findBefore j ≤ i ∧ above.findBefore j ≤ j := by
  cases j with
  | zero => exact ⟨Nat.zero_le _, Nat.le_refl 0⟩
  | succ j => exact h j

theorem Runs.HaveRoom.set {size j : Nat} (h : runs.HaveRoom i) (hi : size ≤ i)
    (hj : size ≤ j + 1) : (runs.set j size).HaveRoom i := by
  intro k
  rw [find_set]
  split
  · rename_i hjk
    rw [← hjk]
    exact ⟨hi, hj⟩
  · exact h k

/-- If the runs above have room, no difference in a row is below zero, and the runs of the row
have room. -/
theorem scanRow?_eq (habove : above.HaveRoom i) (w : Window) (js : List Nat) (best : Block)
    (hruns : runs.HaveRoom (i + 1)) :
    scanRow? w i above js runs best = some (scanRow w i above js runs best) ∧
      (scanRow w i above js runs best).1.HaveRoom (i + 1) := by
  fun_induction scanRow w i above js runs best with
  | case1 runs best => exact ⟨rfl, hruns⟩
  | case2 j js runs best hlo ih =>
    rw [scanRow?, if_pos hlo]
    exact ih hruns
  | case3 j js runs best hlo hhi =>
    rw [scanRow?, if_neg hlo, if_pos hhi]
    exact ⟨rfl, hruns⟩
  | case4 j js runs best hlo hhi size ih =>
    obtain ⟨hi, hj⟩ := habove.findBefore j
    rw [scanRow?, if_neg hlo, if_neg hhi]
    simp only
    rw [Block.after?_eq best (Nat.succ_le_succ hi) (Nat.succ_le_succ hj)]
    exact ih (hruns.set (Nat.succ_le_succ hi) (Nat.succ_le_succ hj))

variable [DecidableEq α] [Hashable α]

/-- Walk rows, and fail if a difference would be below zero. -/
def searchRows? (places : Places b) (w : Window) :
    (i : Nat) → (xs : List α) → (above : Runs) → (best : Block) → Option Block
  | _, [], _, best => some best
  | i, x :: xs, above, best => do
    let row ← scanRow? w i above (places.find x) {} best
    searchRows? places w (i + 1) xs row.1 row.2

/-- Search for the longest block of a window, and fail if a difference would be below zero. -/
def longestBlock? (a : List α) (places : Places b) (w : Window) : Option Block :=
  searchRows? places w w.aLo (w.aPart a) {} ⟨w.aLo, w.bLo, 0⟩

/-- Each row leaves room for the runs of the next one. -/
theorem searchRows?_eq (places : Places b) (w : Window) (xs : List α) (best : Block)
    (habove : above.HaveRoom i) :
    searchRows? places w i xs above best = some (searchRows places w i xs above best) := by
  induction xs generalizing i above best with
  | nil => rfl
  | cons x xs ih =>
    obtain ⟨hrow, hroom⟩ :=
      scanRow?_eq habove w (places.find x) best (Runs.haveRoom_empty (i + 1))
    rw [searchRows?, hrow]
    exact ih _ hroom

/-- A search in a window that lies in both sequences finds the longest block of the window, and
the first of several, and it takes no difference that is below zero. -/
theorem longestBlock_spec (places : Places b) (hw : w.Within a b) :
    (longestBlock a places w).IsFirstLongestIn w a b ∧
      longestBlock? a places w = some (longestBlock a places w) :=
  ⟨isFirstLongestIn_longestBlock places hw,
    searchRows?_eq places w (w.aPart a) _ (Runs.haveRoom_empty w.aLo)⟩

-- characters are hashed by their code, whatever other ways are known
attribute [local instance (high)] instHashableChar

/-- The window leaves out the first place of `ab` in the one text, and of its two places in the
other the first one wins. -/
theorem longestBlock_spec_tied :
    let a := "abxab".toList
    let b := "yabab".toList
    let w : Window := ⟨0, 5, 2, 5⟩
    w.Within a b ∧ longestBlock a (.of b) w = ⟨0, 3, 2⟩ ∧
      longestBlock? a (.of b) w = some ⟨0, 3, 2⟩ := by
  intro a b w
  have hw : w.Within a b := ⟨by decide, by decide, by decide, by decide⟩
  obtain ⟨hfirst, hchecked⟩ := longestBlock_spec (.of b) hw
  have hinside : Block.Inside ⟨0, 3, 2⟩ w := ⟨by decide, by decide, by decide, by decide⟩
  have hfound := hfirst.longest ⟨0, 3, 2⟩ hinside rfl
  have hexhaustive := isFirstLongest_shift (isFirstLongest_longestCommon (w.aPart a) (w.bPart b))
  have heq : longestBlock a (.of b) w = ⟨0, 3, 2⟩ :=
    ((isFirstLongest_longestBlock a (.of b) w).eq hexhaustive
      (Nat.ne_of_gt (Nat.lt_of_lt_of_le Nat.two_pos hfound))).trans (by decide +kernel)
  exact ⟨hw, heq, heq ▸ hchecked⟩

end ErrorHints.Similarity
