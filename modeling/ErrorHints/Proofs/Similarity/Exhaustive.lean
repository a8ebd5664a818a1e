import ErrorHints.Similarity.Matching

/-!
# The matched elements, by exhaustive search

What two sequences have in common can be said without windows, runs and stacks: from every
pair of places take the common front, keep the first longest one, and do the same with what
lies before and with what lies behind it. `commonCount` counts in this way, from the
definition alone; the engine's `matchedCount` comes to the same number.

Results:
* `isFirstLongest_longestCommon`: trying all pairs of places finds the first longest block.
* `commonCount_window`: the block that the engine finds in a window splits its parts alike.
* `matchedCount_eq_commonCount`: the two counts are equal.
-/
namespace ErrorHints.Similarity

variable {α : Type}

/-! ## Parts -/

variable {a b : List α} {w : Window}

/-- The sequences have equal elements at `i` and at `j`. -/
def Agree (a b : List α) (i j : Nat) : Prop := ∃ x, a[i]? = some x ∧ b[j]? = some x

/-- The hits of a window are the pairs at which its parts agree. -/
theorem hits_iff_agree (i j : Nat) :
    w.Hits a b (w.aLo + i) (w.bLo + j) ↔ Agree (w.aPart a) (w.bPart b) i j := by
  unfold Window.Hits Agree
  rw [getElem?_aPart, getElem?_bPart]
  constructor
  · intro h
    obtain ⟨⟨-, hi⟩, ⟨-, hj⟩, x, hx, hx'⟩ := h
    exact ⟨x, by rwa [if_pos hi], by rwa [if_pos hj]⟩
  · intro h
    obtain ⟨x, hx, hx'⟩ := h
    split at hx
    · rename_i hi
      split at hx'
      · rename_i hj
        exact ⟨⟨Nat.le_add_right _ _, hi⟩, ⟨Nat.le_add_right _ _, hj⟩, x, hx, hx'⟩
      · cases hx'
    · cases hx

/-- The block, counted from the lower corner of the window. -/
def Window.shift (w : Window) (m : Block) : Block := ⟨w.aLo + m.aStart, w.bLo + m.bStart, m.size⟩

/-- The first longest block of the parts is that of the window. -/
theorem isFirstLongest_shift {m : Block}
    (h : m.IsFirstLongest (Agree (w.aPart a) (w.bPart b))) :
    (w.shift m).IsFirstLongest (w.Hits a b) where
  common := by
    intro t ht
    simp only [Window.shift, Nat.add_assoc]
    exact (hits_iff_agree _ _).2 (h.common t ht)
  beats := by
    intro m' hm' hs
    obtain ⟨⟨hi, -⟩, ⟨hj, -⟩, -⟩ := hm' 0 (Nat.pos_of_ne_zero hs)
    have hcommon : Block.Common (Agree (w.aPart a) (w.bPart b))
        ⟨m'.aStart - w.aLo, m'.bStart - w.bLo, m'.size⟩ := by
      intro t ht
      rw [← hits_iff_agree]
      have := hm' t ht
      rwa [show w.aLo + (m'.aStart - w.aLo + t) = m'.aStart + t by omega,
        show w.bLo + (m'.bStart - w.bLo + t) = m'.bStart + t by omega]
    have := h.beats _ hcommon hs
    simp only [Block.Beats, Window.shift] at this ⊢
    omega

theorem take_part (lo hi k : Nat) (h : lo + k ≤ hi) (a : List α) :
    (a.take (lo + k)).drop lo = ((a.take hi).drop lo).take k := by
  rw [List.drop_take, List.drop_take, List.take_take]
  congr 1
  omega

variable [DecidableEq α]

/-! ## All pairs of places -/

/-- The length of the longest common front. -/
def commonFront : List α → List α → Nat
  | x :: a, y :: b => if x = y then commonFront a b + 1 else 0
  | _, _ => 0

/-- The longest common block from each pair of places, in the order of the places. -/
def commonBlocks (a b : List α) : List Block :=
  (List.range a.length).flatMap fun i =>
    (List.range b.length).map fun j => ⟨i, j, commonFront (a.drop i) (b.drop j)⟩

/-- The second block if it is longer, else the first. -/
def longer (best m : Block) : Block := if best.size < m.size then m else best

/-- The longest common block, the first of several. -/
def longestCommon (a b : List α) : Block := (commonBlocks a b).foldl longer ⟨0, 0, 0⟩

theorem lt_commonFront_iff {a b : List α} {t : Nat} :
    t < commonFront a b ↔ ∀ s ≤ t, Agree a b s s := by
  induction a generalizing b t with
  | nil =>
    refine iff_of_false (Nat.not_lt_zero t) fun h => ?_
    obtain ⟨x, hx, -⟩ := h 0 (Nat.zero_le t)
    cases hx
  | cons x a ih =>
    cases b with
    | nil =>
      refine iff_of_false (Nat.not_lt_zero t) fun h => ?_
      obtain ⟨x, -, hx⟩ := h 0 (Nat.zero_le t)
      cases hx
    | cons y b =>
      unfold commonFront
      split
      · rename_i hxy
        cases t with
        | zero =>
          refine iff_of_true (Nat.succ_pos _) fun s hs => ⟨x, ?_⟩
          rw [Nat.le_zero.1 hs]
          exact ⟨rfl, by rw [hxy]; rfl⟩
        | succ t =>
          rw [Nat.succ_lt_succ_iff, ih]
          constructor
          · intro h s hs
            cases s with
            | zero => exact ⟨x, rfl, by rw [hxy]; rfl⟩
            | succ s => exact h s (Nat.le_of_succ_le_succ hs)
          · intro h s hs
            exact h (s + 1) (Nat.succ_le_succ hs)
      · rename_i hxy
        refine iff_of_false (Nat.not_lt_zero t) fun h => hxy ?_
        obtain ⟨z, hz, hz'⟩ := h 0 (Nat.zero_le t)
        exact (Option.some.inj hz).trans (Option.some.inj hz').symm

theorem lt_commonFront_drop_iff {a b : List α} {i j t : Nat} :
    t < commonFront (a.drop i) (b.drop j) ↔ ∀ s ≤ t, Agree a b (i + s) (j + s) := by
  rw [lt_commonFront_iff]
  simp only [Agree, List.getElem?_drop]

/-- The one block does not begin later than the other. -/
def Block.NotLater (m m' : Block) : Prop :=
  m.aStart < m'.aStart ∨ m.aStart = m'.aStart ∧ m.bStart ≤ m'.bStart

theorem pairwise_commonBlocks (a b : List α) : (commonBlocks a b).Pairwise Block.NotLater := by
  unfold commonBlocks
  rw [List.pairwise_flatMap]
  refine ⟨fun i _ => ?_, List.pairwise_lt_range.imp fun {i i'} hi m hm m' hm' => ?_⟩
  · exact List.pairwise_map.2 (List.pairwise_le_range.imp fun h => .inr ⟨rfl, h⟩)
  · obtain ⟨_, -, rfl⟩ := List.mem_map.1 hm
    obtain ⟨_, -, rfl⟩ := List.mem_map.1 hm'
    exact .inl hi

theorem Block.Beats.trans {m m' m'' : Block} (h : m.Beats m') (h' : m'.Beats m'') :
    m.Beats m'' := by
  unfold Beats at *
  omega

/-- Of blocks in the order of their places, the first longest is kept. -/
theorem foldl_longer {l : List Block} (hl : l.Pairwise Block.NotLater) {best : Block}
    (hbest : ∀ m ∈ l, best.NotLater m) :
    l.foldl longer best ∈ best :: l ∧ ∀ m ∈ best :: l, (l.foldl longer best).Beats m := by
  induction l generalizing best with
  | nil =>
    refine ⟨List.mem_cons_self, fun m hm => ?_⟩
    rw [List.mem_singleton.1 hm]
    exact .inr ⟨rfl, .inr ⟨rfl, Nat.le_refl _⟩⟩
  | cons m l ih =>
    obtain ⟨hm, hl⟩ := List.pairwise_cons.1 hl
    have hbm := hbest m List.mem_cons_self
    have hkeep : longer best m = best ∨ longer best m = m := by
      unfold longer; split <;> simp
    have hlater : ∀ m' ∈ l, (longer best m).NotLater m' := by
      intro m' hm'
      rcases hkeep with h | h <;> rw [h]
      · exact hbest m' (List.mem_cons_of_mem m hm')
      · exact hm m' hm'
    obtain ⟨hmem, hbeats⟩ := ih hl hlater
    have hfirst := hbeats _ List.mem_cons_self
    have htwo : (longer best m).Beats best ∧ (longer best m).Beats m := by
      unfold longer Block.Beats Block.NotLater at *
      split <;> omega
    rw [List.foldl_cons]
    constructor
    · rcases List.mem_cons.1 hmem with h | h
      · rw [h]
        rcases hkeep with h | h <;> rw [h] <;> simp
      · exact List.mem_cons_of_mem _ (List.mem_cons_of_mem m h)
    · intro m' hm'
      rcases List.mem_cons.1 hm' with rfl | hm'
      · exact hfirst.trans htwo.1
      · rcases List.mem_cons.1 hm' with rfl | hm'
        · exact hfirst.trans htwo.2
        · exact hbeats m' (List.mem_cons_of_mem _ hm')

/-- Trying all pairs of places finds the first longest block. -/
theorem isFirstLongest_longestCommon (a b : List α) :
    (longestCommon a b).IsFirstLongest (Agree a b) := by
  have hstart : ∀ m ∈ commonBlocks a b, Block.NotLater ⟨0, 0, 0⟩ m := fun m _ => by
    unfold Block.NotLater; simp only; omega
  obtain ⟨hmem, hbeats⟩ := foldl_longer (pairwise_commonBlocks a b) hstart
  refine ⟨fun t ht => ?_, fun m hm hs => ?_⟩
  · rcases List.mem_cons.1 hmem with h | h
    · unfold longestCommon at ht
      rw [h] at ht
      exact absurd ht (Nat.not_lt_zero t)
    · obtain ⟨i, -, h⟩ := List.mem_flatMap.1 h
      obtain ⟨j, -, h⟩ := List.mem_map.1 h
      unfold longestCommon at ht ⊢
      rw [← h] at ht ⊢
      exact lt_commonFront_drop_iff.1 ht t (Nat.le_refl t)
  · -- a common block is the front of the block taken at its start
    have hfront : m.size ≤ commonFront (a.drop m.aStart) (b.drop m.bStart) := by
      have := lt_commonFront_drop_iff.2 fun s (hs' : s ≤ m.size - 1) => hm s (by omega)
      omega
    obtain ⟨x, hx, hx'⟩ := hm 0 (Nat.pos_of_ne_zero hs)
    have hi := (List.getElem?_eq_some_iff.1 hx).1
    have hj := (List.getElem?_eq_some_iff.1 hx').1
    have hin : (⟨m.aStart, m.bStart, commonFront (a.drop m.aStart) (b.drop m.bStart)⟩ : Block) ∈
        commonBlocks a b :=
      List.mem_flatMap.2 ⟨_, List.mem_range.2 hi, List.mem_map.2 ⟨_, List.mem_range.2 hj, rfl⟩⟩
    refine (hbeats _ (List.mem_cons_of_mem _ hin)).trans ?_
    rcases Nat.lt_or_eq_of_le hfront with h | h
    · exact .inl h
    · exact .inr ⟨h, .inr ⟨rfl, Nat.le_refl _⟩⟩

-- four blocks of one element: the first place of both sequences wins
example : longestCommon "aa".toList "aba".toList = ⟨0, 0, 1⟩ := by decide +kernel

/-! ## The recursion -/

/-- A common block that is not empty lies inside both sequences. -/
theorem longestCommon_le {a b : List α} (hs : (longestCommon a b).size ≠ 0) :
    (longestCommon a b).aStart + (longestCommon a b).size ≤ a.length ∧
      (longestCommon a b).bStart + (longestCommon a b).size ≤ b.length := by
  obtain ⟨x, hx, hx'⟩ := (isFirstLongest_longestCommon a b).common
    ((longestCommon a b).size - 1) (by omega)
  have hi := (List.getElem?_eq_some_iff.1 hx).1
  have hj := (List.getElem?_eq_some_iff.1 hx').1
  omega

/-- There is a common block if and only if there is a common element. -/
theorem longestCommon_size_ne_zero_iff {a b : List α} :
    (longestCommon a b).size ≠ 0 ↔ ∃ x ∈ a, x ∈ b := by
  have hfirst := isFirstLongest_longestCommon a b
  constructor
  · intro hs
    obtain ⟨x, hx, hx'⟩ := hfirst.common 0 (Nat.pos_of_ne_zero hs)
    exact ⟨x, List.mem_of_getElem? hx, List.mem_of_getElem? hx'⟩
  · intro h
    obtain ⟨x, hxa, hxb⟩ := h
    obtain ⟨i, hi⟩ := List.mem_iff_getElem?.1 hxa
    obtain ⟨j, hj⟩ := List.mem_iff_getElem?.1 hxb
    have hcommon : Block.Common (Agree a b) ⟨i, j, 1⟩ := fun t ht => by
      obtain rfl := Nat.lt_one_iff.1 ht
      exact ⟨x, hi, hj⟩
    have := hfirst.beats _ hcommon Nat.one_ne_zero
    simp only [Block.Beats] at this
    omega

/-- The number of elements in the longest common block and in those that are found in the
same way before and behind it; none if the sequences have no element in common. -/
def commonCount (a b : List α) : Nat :=
  if ∃ x ∈ a, x ∈ b then
    let m := longestCommon a b
    m.size + commonCount (a.take m.aStart) (b.take m.bStart) +
      commonCount (a.drop (m.aStart + m.size)) (b.drop (m.bStart + m.size))
  else 0
termination_by a.length
decreasing_by
  all_goals
    rename_i h
    have hs := longestCommon_size_ne_zero_iff.2 h
    have := longestCommon_le hs
    simp only [List.length_take, List.length_drop]
    omega

theorem commonCount_of_size_eq_zero {a b : List α} (h : (longestCommon a b).size = 0) :
    commonCount a b = 0 := by
  rw [commonCount, if_neg fun hx => longestCommon_size_ne_zero_iff.2 hx h]

theorem commonCount_of_size_ne_zero {a b : List α} (h : (longestCommon a b).size ≠ 0) :
    commonCount a b = (longestCommon a b).size +
      commonCount (a.take (longestCommon a b).aStart) (b.take (longestCommon a b).bStart) +
      commonCount (a.drop ((longestCommon a b).aStart + (longestCommon a b).size))
        (b.drop ((longestCommon a b).bStart + (longestCommon a b).size)) := by
  rw [commonCount, if_pos (longestCommon_size_ne_zero_iff.1 h)]

theorem commonCount_nil_left (b : List α) : commonCount [] b = 0 := by
  rw [commonCount, if_neg (by simp)]

theorem commonCount_nil_right (a : List α) : commonCount a [] = 0 := by
  rw [commonCount, if_neg (by simp)]

/-! ## Windows -/

theorem commonCount_of_isEmpty (h : w.isEmpty) : commonCount (w.aPart a) (w.bPart b) = 0 := by
  simp only [Window.isEmpty, Bool.or_eq_true, decide_eq_true_eq] at h
  rcases h with h | h
  · rw [Window.aPart, List.drop_eq_nil_of_le (by rw [List.length_take]; omega),
      commonCount_nil_left]
  · rw [Window.bPart, List.drop_eq_nil_of_le (by rw [List.length_take]; omega),
      commonCount_nil_right]

/-- The count of all parts that the windows show. -/
def countIn (a b : List α) : List Window → Nat
  | [] => 0
  | w :: ws => commonCount (w.aPart a) (w.bPart b) + countIn a b ws

theorem countIn_append (a b : List α) (ws ws' : List Window) :
    countIn a b (ws ++ ws') = countIn a b ws + countIn a b ws' := by
  induction ws with
  | nil => simp [countIn]
  | cons w ws ih => rw [List.cons_append, countIn, countIn, ih, Nat.add_assoc]

/-- The window that shows all of both sequences. -/
theorem countIn_whole (a b : List α) : countIn a b [.whole a b] = commonCount a b := by
  rw [countIn, countIn, Nat.add_zero]
  simp only [Window.aPart, Window.bPart, Window.whole, List.take_length, List.drop_zero]

/-- Nothing is lost with the empty windows around a block. -/
theorem countIn_around (a b : List α) (w : Window) (m : Block) :
    countIn a b (w.around m) = commonCount ((w.before m).aPart a) ((w.before m).bPart b) +
      commonCount ((w.after m).aPart a) ((w.after m).bPart b) := by
  have hskip : ∀ ws : List Window, countIn a b (ws.filter fun w => !w.isEmpty) = countIn a b ws := by
    intro ws
    induction ws with
    | nil => rfl
    | cons w ws ih =>
      cases hw : w.isEmpty with
      | true =>
        rw [List.filter_cons_of_neg (by simp [hw]), ih, countIn,
          commonCount_of_isEmpty (by simp [hw]), Nat.zero_add]
      | false => rw [List.filter_cons_of_pos (by simp [hw]), countIn, countIn, ih]
  rw [Window.around, hskip, countIn, countIn, countIn, Nat.add_zero, Nat.add_comm]

variable [Hashable α]

/-- The block that the engine finds in a window splits the parts that the window shows in the
same way as the exhaustive search does. -/
theorem commonCount_window (a : List α) (places : Places b) (w : Window) :
    commonCount (w.aPart a) (w.bPart b) =
      if (longestBlock a places w).size = 0 then 0
      else (longestBlock a places w).size + countIn a b (w.around (longestBlock a places w)) := by
  have hfound := isFirstLongest_longestBlock a places w
  have hshift := isFirstLongest_shift (isFirstLongest_longestCommon (w.aPart a) (w.bPart b))
  have hsize := hfound.size_eq hshift
  split
  · rename_i hs
    exact commonCount_of_size_eq_zero (hsize ▸ hs)
  · rename_i hs
    have hs' : (longestCommon (w.aPart a) (w.bPart b)).size ≠ 0 := fun h => hs (hsize.trans h)
    have hle := longestCommon_le hs'
    rw [hfound.eq hshift hs, countIn_around, commonCount_of_size_ne_zero hs', Nat.add_assoc]
    generalize longestCommon (w.aPart a) (w.bPart b) = m at hs' hle
    simp only [Window.aPart, Window.bPart, List.length_drop, List.length_take] at hle
    simp only [Window.before, Window.after, Window.aPart, Window.bPart, Window.shift,
      List.drop_drop, Nat.add_assoc]
    rw [take_part _ w.aHi _ (by omega), take_part _ w.bHi _ (by omega)]

/-- What is matched in windows is the count of the parts that they show. -/
theorem matchedIn_eq (a : List α) (places : Places b) (pending : List Window) (total : Nat) :
    matchedIn a places pending total = total + countIn a b pending := by
  fun_induction matchedIn a places pending total with
  | case1 total => rfl
  | case2 total w rest m hm ih =>
    rw [ih, countIn, commonCount_window a places w, if_pos hm, Nat.zero_add]
  | case3 total w rest m hm ih =>
    rw [ih, countIn_append, countIn, commonCount_window a places w, if_neg hm]
    simp only [m, Nat.add_assoc]

/-- The engine begins with the window that shows all of both sequences. -/
theorem matchedCount_eq_countIn (a b : List α) : matchedCount a b = countIn a b [.whole a b] := by
  rw [matchedCount, matchedIn_eq, Nat.zero_add]

/-- The engine counts what the exhaustive search counts. -/
theorem matchedCount_eq_commonCount (a b : List α) : matchedCount a b = commonCount a b := by
  rw [matchedCount, matchedIn_eq, countIn, countIn, Nat.add_zero, Nat.zero_add]
  simp only [Window.aPart, Window.bPart, Window.whole, List.take_length, List.drop_zero]

end ErrorHints.Similarity
