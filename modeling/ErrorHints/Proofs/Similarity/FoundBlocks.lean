import ErrorHints.Proofs.Similarity.Bounds
import Mathlib.Algebra.GroupWithZero.Nat
import Mathlib.Order.Lattice.Nat

/-!
# The blocks that are matched

The search adds up the sizes of the blocks that it finds. Here the blocks themselves are kept.
The windows on the stack lie behind one another in both sequences, the top one behind all others,
and a search keeps it so: what lies before and behind the block found takes the place of the
window. Hence of any two blocks found one lies before the other in both sequences, and put in
this order the blocks increase in both.

So the count of the matched elements lies between two exact measures: it is at least the length
of the longest common substring, which is the first block found, and at most that of the longest
common subsequence, since the blocks make up one.

Results:
* `isGreatest_commonSubstringLengths`: the first longest block is the longest common substring.
* `matchedIn_eq_sum`: the search counts the elements of the blocks it finds.
* `pairwise_foundIn`: of two blocks found one lies before the other.
* `matchedCount_between`: the count lies between the exact measures.
-/
namespace ErrorHints.Similarity

variable {α : Type} {a b : List α}

/-! ## Before and behind -/

/-- The one block lies wholly before the other in both sequences. -/
def Block.Precedes (m m' : Block) : Prop :=
  m.aStart + m.size ≤ m'.aStart ∧ m.bStart + m.size ≤ m'.bStart

/-- The one window lies wholly before the other in both sequences. -/
def Window.Precedes (w w' : Window) : Prop := w.aHi ≤ w'.aLo ∧ w.bHi ≤ w'.bLo

/-- One of the blocks lies wholly before the other in both sequences. -/
def Block.Apart (m m' : Block) : Prop := m.Precedes m' ∨ m'.Precedes m

/-- The windows of the stack lie behind one another, the top one behind all others. -/
def Stacked (pending : List Window) : Prop := pending.Pairwise fun w w' => w'.Precedes w

variable {w w' v : Window} {m m' : Block} {pending rest : List Window}

theorem Block.Inside.precedes (h : m.Inside w) (h' : m'.Inside w') (hw : w.Precedes w') :
    m.Precedes m' := by
  unfold Inside Window.Precedes at *
  unfold Precedes
  omega

theorem eq_of_mem_around (h : v ∈ w.around m) : v = w.after m ∨ v = w.before m := by
  simpa using List.mem_of_mem_filter h

/-- What lies inside a part of a window lies inside the window. -/
theorem Block.Inside.of_around (h : m.Inside w) (hv : v ∈ w.around m) (h' : m'.Inside v) :
    m'.Inside w := by
  unfold Inside at *
  rcases eq_of_mem_around hv with rfl | rfl
  · simp only [Window.after] at h'
    omega
  · simp only [Window.before] at h'
    omega

/-- What lies inside a part of a window lies before or behind the block that parts it. -/
theorem Block.Inside.apart_of_around (hv : v ∈ w.around m) (h : m'.Inside v) : m.Apart m' := by
  unfold Inside at h
  unfold Apart Precedes
  rcases eq_of_mem_around hv with rfl | rfl
  · simp only [Window.after] at h
    omega
  · simp only [Window.before] at h
    omega

/-- The parts of the top window take its place on the stack. -/
theorem Stacked.split (h : Stacked (w :: rest)) (hm : m.Inside w) :
    Stacked (w.around m ++ rest) := by
  obtain ⟨hw, hrest⟩ := List.pairwise_cons.1 h
  refine List.pairwise_append.2 ⟨List.Pairwise.filter _ ?_, hrest, ?_⟩
  · rw [List.pairwise_pair]
    unfold Window.Precedes Window.before Window.after
    exact ⟨Nat.le_add_right _ _, Nat.le_add_right _ _⟩
  · intro v hv u hu
    have hbelow := hw u hu
    unfold Block.Inside at hm
    unfold Window.Precedes at *
    rcases eq_of_mem_around hv with rfl | rfl
    · simp only [Window.after]
      omega
    · simp only [Window.before]
      omega

/-- Blocks that are apart from each other can be put in order. -/
theorem exists_perm_precedes {blocks : List Block} (hapart : blocks.Pairwise Block.Apart)
    (hsize : ∀ m ∈ blocks, m.size ≠ 0) :
    ∃ ordered : List Block, ordered.Perm blocks ∧ ordered.Pairwise Block.Precedes := by
  let le : Block → Block → Bool := fun m m' => m.aStart ≤ m'.aStart
  have hperm := List.mergeSort_perm blocks le
  have hsorted : (blocks.mergeSort le).Pairwise fun m m' => le m m' = true := by
    apply List.pairwise_mergeSort
    · intro m m' m'' h h'
      simp only [le, decide_eq_true_eq] at *
      omega
    · intro m m'
      simp only [le, Bool.or_eq_true, decide_eq_true_eq]
      omega
  have hdisjoint := hapart.perm hperm.symm fun {m m'} h => Or.symm h
  refine ⟨blocks.mergeSort le, hperm, (hsorted.and hdisjoint).imp_of_mem ?_⟩
  rintro m m' - hm' ⟨hle, hmm'⟩
  have := hsize m' (hperm.mem_iff.1 hm')
  simp only [le, decide_eq_true_eq] at hle
  unfold Block.Apart Block.Precedes at hmm'
  unfold Block.Precedes
  omega

/-! ## The exact measures -/

/-- The lengths of the lists that occur in both sequences in one piece. -/
def commonSubstringLengths (a b : List α) : Set Nat :=
  {n | ∃ s : List α, s <:+: a ∧ s <:+: b ∧ s.length = n}

/-- The lengths of the lists that occur in both sequences in their order. -/
def commonSubsequenceLengths (a b : List α) : Set Nat :=
  {n | ∃ s : List α, s.Sublist a ∧ s.Sublist b ∧ s.length = n}

theorem exists_isGreatest_commonSubsequenceLengths (a b : List α) :
    ∃ n, IsGreatest (commonSubsequenceLengths a b) n := by
  have hbounded : BddAbove (commonSubsequenceLengths a b) := by
    refine ⟨a.length, ?_⟩
    rintro n ⟨s, hsa, -, rfl⟩
    exact hsa.length_le
  have hempty : 0 ∈ commonSubsequenceLengths a b :=
    ⟨[], List.nil_sublist a, List.nil_sublist b, rfl⟩
  exact ⟨_, Nat.sSup_mem ⟨0, hempty⟩ hbounded, fun n hn => le_csSup hbounded hn⟩

/-- A list that occurs in both sequences in one piece is a common block. -/
theorem exists_common_of_substring {s : List α} (ha : s <:+: a) (hb : s <:+: b) :
    ∃ i j, Block.Common (Agree a b) ⟨i, j, s.length⟩ := by
  obtain ⟨i, -, hi⟩ := List.infix_iff_getElem?.1 ha
  obtain ⟨j, -, hj⟩ := List.infix_iff_getElem?.1 hb
  refine ⟨i, j, fun t ht => ⟨s[t], ?_, ?_⟩⟩
  · rw [Nat.add_comm]
    exact hi t ht
  · rw [Nat.add_comm]
    exact hj t ht

variable [DecidableEq α]

/-- The first longest block is the longest common substring. -/
theorem isGreatest_commonSubstringLengths (a b : List α) :
    IsGreatest (commonSubstringLengths a b) (longestCommon a b).size := by
  have hfirst := isFirstLongest_longestCommon a b
  constructor
  · by_cases hs : (longestCommon a b).size = 0
    · exact ⟨[], List.nil_infix, List.nil_infix, hs.symm⟩
    have hle := (longestCommon_le hs).1
    refine ⟨(a.drop (longestCommon a b).aStart).take (longestCommon a b).size, ?_, ?_, ?_⟩
    · exact (List.take_prefix _ _).isInfix.trans (List.drop_suffix _ _).isInfix
    · rw [take_drop_eq_of_common hfirst.common]
      exact (List.take_prefix _ _).isInfix.trans (List.drop_suffix _ _).isInfix
    · rw [List.length_take, List.length_drop]
      omega
  · rintro n ⟨s, hsa, hsb, rfl⟩
    obtain ⟨i, j, hcommon⟩ := exists_common_of_substring hsa hsb
    by_cases hs : s.length = 0
    · omega
    have := hfirst.beats _ hcommon hs
    simp only [Block.Beats] at this
    omega

variable [Hashable α]

/-- The longest common block is matched, whatever else is. -/
theorem size_longestCommon_le_matchedCount (a b : List α) :
    (longestCommon a b).size ≤ matchedCount a b := by
  rw [matchedCount_eq_countIn, countIn_whole]
  by_cases hs : (longestCommon a b).size = 0
  · omega
  rw [commonCount_of_size_ne_zero hs]
  omega

/-- Nothing that occurs in both sequences in one piece is longer than what is matched. -/
theorem length_le_matchedCount {s : List α} (ha : s <:+: a) (hb : s <:+: b) :
    s.length ≤ matchedCount a b :=
  Nat.le_trans ((isGreatest_commonSubstringLengths a b).2 ⟨s, ha, hb, rfl⟩)
    (size_longestCommon_le_matchedCount a b)

/-! ## The blocks found -/

theorem weight_parted_lt (a : List α) (places : Places b) (rest : List Window)
    (h : (longestBlock a places w).size ≠ 0) :
    weight (w.around (longestBlock a places w) ++ rest) < weight (w :: rest) := by
  have := weight_around_lt (longestBlock_inside a places w h) h
  rw [weight_append, weight]
  omega

/-- The blocks found in the `pending` windows and around those blocks, as the search comes
upon them. -/
def foundIn (a : List α) {b : List α} (places : Places b) (pending : List Window) : List Block :=
  match pending with
  | [] => []
  | w :: rest =>
    let m := longestBlock a places w
    if m.size = 0 then foundIn a places rest else m :: foundIn a places (w.around m ++ rest)
termination_by weight pending
decreasing_by
  · simp only [weight]; omega
  · rename_i hm
    exact weight_parted_lt a places rest hm

/-- The blocks that are matched. -/
def foundBlocks (a b : List α) : List Block := foundIn a (.of b) [.whole a b]

/-- The search counts the elements of the blocks it finds. -/
theorem matchedIn_eq_sum (a : List α) (places : Places b) (pending : List Window) (total : Nat) :
    matchedIn a places pending total = total + ((foundIn a places pending).map Block.size).sum := by
  fun_induction matchedIn a places pending total with
  | case1 total => rw [foundIn, List.map_nil, List.sum_nil, Nat.add_zero]
  | case2 total w rest m hm ih => rw [ih, foundIn, if_pos hm]
  | case3 total w rest m hm ih =>
    rw [ih, foundIn, if_neg hm, List.map_cons, List.sum_cons, Nat.add_assoc]

theorem matchedCount_eq_sum (a b : List α) :
    matchedCount a b = ((foundBlocks a b).map Block.size).sum := by
  rw [matchedCount, matchedIn_eq_sum, Nat.zero_add, foundBlocks]

/-- A block found is a common block, and it lies inside one of the windows. -/
theorem of_mem_foundIn {places : Places b} (h : m ∈ foundIn a places pending) :
    m.size ≠ 0 ∧ m.Common (Agree a b) ∧ ∃ w ∈ pending, m.Inside w := by
  fun_induction foundIn a places pending with
  | case1 => cases h
  | case2 w rest found hfound ih =>
    obtain ⟨hs, hcommon, v, hv, hin⟩ := ih h
    exact ⟨hs, hcommon, v, List.mem_cons_of_mem w hv, hin⟩
  | case3 w rest found hfound ih =>
    have hinside := longestBlock_inside a places w hfound
    rcases List.mem_cons.1 h with rfl | h
    · refine ⟨hfound, fun t ht => ?_, w, List.mem_cons_self, hinside⟩
      exact ((isFirstLongest_longestBlock a places w).common t ht).2.2
    · obtain ⟨hs, hcommon, v, hv, hin⟩ := ih h
      refine ⟨hs, hcommon, ?_⟩
      rcases List.mem_append.1 hv with hv | hv
      · exact ⟨w, List.mem_cons_self, hinside.of_around hv hin⟩
      · exact ⟨v, List.mem_cons_of_mem w hv, hin⟩

/-- Of two blocks found, one lies before the other. -/
theorem pairwise_foundIn {places : Places b} (h : Stacked pending) :
    (foundIn a places pending).Pairwise Block.Apart := by
  fun_induction foundIn a places pending with
  | case1 => exact List.Pairwise.nil
  | case2 w rest found hfound ih => exact ih (List.pairwise_cons.1 h).2
  | case3 w rest found hfound ih =>
    have hinside := longestBlock_inside a places w hfound
    refine List.pairwise_cons.2 ⟨fun m' hm' => ?_, ih (h.split hinside)⟩
    obtain ⟨-, -, v, hv, hin⟩ := of_mem_foundIn hm'
    rcases List.mem_append.1 hv with hv | hv
    · exact Block.Inside.apart_of_around hv hin
    · exact .inr (hin.precedes hinside ((List.pairwise_cons.1 h).1 v hv))

/-- The blocks that are matched are common blocks that increase in both sequences. -/
theorem exists_perm_foundBlocks (a b : List α) :
    ∃ blocks : List Block, blocks.Perm (foundBlocks a b) ∧ blocks.Pairwise Block.Precedes ∧
      (∀ m ∈ blocks, m.size ≠ 0 ∧ m.Common (Agree a b)) ∧
      (blocks.map Block.size).sum = matchedCount a b := by
  have hfound : ∀ m ∈ foundBlocks a b, m.size ≠ 0 ∧ m.Common (Agree a b) := by
    intro m hm
    obtain ⟨hs, hcommon, -⟩ := of_mem_foundIn hm
    exact ⟨hs, hcommon⟩
  have hapart : (foundBlocks a b).Pairwise Block.Apart :=
    pairwise_foundIn (List.pairwise_singleton _ _)
  obtain ⟨blocks, hperm, hordered⟩ := exists_perm_precedes hapart fun m hm => (hfound m hm).1
  refine ⟨blocks, hperm, hordered, fun m hm => hfound m (hperm.mem_iff.1 hm), ?_⟩
  rw [matchedCount_eq_sum, (hperm.map Block.size).sum_nat]

/-! ## What follows for the count -/

theorem matchedCount_le_shorterLength (a b : List α) : matchedCount a b ≤ shorterLength a b :=
  Nat.le_trans (matchedCount_le_sharedCount a b) (sharedCount_le_shorterLength a b)

theorem two_mul_matchedCount_le (a b : List α) : 2 * matchedCount a b ≤ a.length + b.length := by
  have := matchedCount_le_shorterLength a b
  unfold shorterLength at this
  omega

theorem matchedCount_of_contained (h : a <:+: b ∨ b <:+: a) :
    matchedCount a b = shorterLength a b := by
  have hle := matchedCount_le_shorterLength a b
  unfold shorterLength at *
  rcases h with h | h
  · have := length_le_matchedCount List.infix_rfl h
    omega
  · have := length_le_matchedCount h List.infix_rfl
    omega

theorem matchedCount_eq_zero_iff : matchedCount a b = 0 ↔ ∀ x ∈ a, x ∉ b := by
  constructor
  · intro hzero x hxa hxb
    have := longestCommon_size_ne_zero_iff.2 ⟨x, hxa, hxb⟩
    have := size_longestCommon_le_matchedCount a b
    omega
  · intro hnone
    rw [matchedCount_eq_countIn, countIn_whole, commonCount, if_neg]
    rintro ⟨x, hxa, hxb⟩
    exact hnone x hxa hxb

/-- Everything is matched only if the sequences are equal. -/
theorem two_mul_matchedCount_eq_iff : 2 * matchedCount a b = a.length + b.length ↔ a = b := by
  have hle := matchedCount_le_shorterLength a b
  unfold shorterLength at hle
  constructor
  · intro hall
    obtain ⟨s, hsa, hsb, hs⟩ := exists_sublist_matchedCount a b
    rw [← hsa.eq_of_length (by omega), ← hsb.eq_of_length (by omega)]
  · rintro rfl
    have := length_le_matchedCount (List.infix_rfl (l := a)) List.infix_rfl
    omega

-- powers of naturals, and characters hashed by their code, whatever other ways are known
attribute [local instance (high)] instPowNat instHashableChar

theorem similarity_self (a : String) : similarity a a = .one :=
  Score.ofCounts_eq_one (two_mul_matchedCount_eq_iff.2 rfl)

/-- Only equal texts have the score 1, if nothing is rounded to it. -/
theorem eq_of_similarity_eq_one {a b : String} (hsize : a.length + b.length < 2 ^ (53 : Nat))
    (h : similarity a b = .one) : a = b := by
  rw [← String.length_toList, ← String.length_toList] at hsize
  rw [similarity, ratio, Score.ofCounts_eq_one_iff (two_mul_matchedCount_le _ _) hsize,
    two_mul_matchedCount_eq_iff] at h
  exact String.toList_inj.1 h

/-- For all texts, the blocks that are matched are common blocks that increase in both texts. The
number of their characters lies between the length of the longest common substring and that of
the longest common subsequence. So twice this number is at most the sum of the lengths, and it is
the sum exactly for equal texts: they have the similarity 1, and no others do as long as the sum
of the lengths has no more digits than a score. Nothing is matched exactly if there is no common
character, and if one text occurs in the other in one piece, all of the shorter one is matched. -/
theorem matchedCount_between (a b : String) :
    (∃ blocks : List Block,
      blocks.Perm (foundBlocks a.toList b.toList) ∧ blocks.Pairwise Block.Precedes ∧
      (∀ m ∈ blocks, m.size ≠ 0 ∧ m.Common (Agree a.toList b.toList)) ∧
      (blocks.map Block.size).sum = matchedCount a.toList b.toList) ∧
    (∃ substring subsequence : Nat,
      IsGreatest (commonSubstringLengths a.toList b.toList) substring ∧
      IsGreatest (commonSubsequenceLengths a.toList b.toList) subsequence ∧
      substring ≤ matchedCount a.toList b.toList ∧ matchedCount a.toList b.toList ≤ subsequence) ∧
    2 * matchedCount a.toList b.toList ≤ a.length + b.length ∧
    (2 * matchedCount a.toList b.toList = a.length + b.length ↔ a = b) ∧
    (a = b → similarity a b = .one) ∧
    (a.length + b.length < 2 ^ (53 : Nat) → similarity a b = .one → a = b) ∧
    (matchedCount a.toList b.toList = 0 ↔ ∀ c ∈ a.toList, c ∉ b.toList) ∧
    (a.toList <:+: b.toList ∨ b.toList <:+: a.toList →
      matchedCount a.toList b.toList = min a.length b.length) := by
  obtain ⟨subsequence, hsubsequence⟩ :=
    exists_isGreatest_commonSubsequenceLengths a.toList b.toList
  have hcount : matchedCount a.toList b.toList ∈
      commonSubsequenceLengths a.toList b.toList :=
    exists_sublist_matchedCount a.toList b.toList
  refine ⟨exists_perm_foundBlocks _ _, ⟨_, subsequence, isGreatest_commonSubstringLengths _ _,
    hsubsequence, size_longestCommon_le_matchedCount _ _, hsubsequence.2 hcount⟩, ?_, ?_, ?_,
    eq_of_similarity_eq_one, matchedCount_eq_zero_iff, ?_⟩
  · rw [← String.length_toList, ← String.length_toList]
    exact two_mul_matchedCount_le _ _
  · rw [← String.length_toList, ← String.length_toList, ← String.toList_inj]
    exact two_mul_matchedCount_eq_iff
  · rintro rfl
    exact similarity_self a
  · rw [← String.length_toList, ← String.length_toList]
    exact matchedCount_of_contained

/-- A short text inside a long one. -/
theorem matchedCount_between_contained :
    "bra".toList <:+: "abracadabra".toList ∧
      matchedCount "bra".toList "abracadabra".toList = 3 := by
  have hwithin : "bra".toList <:+: "abracadabra".toList := ⟨"a".toList, "cadabra".toList, by rfl⟩
  obtain ⟨-, -, -, -, -, -, -, hcontained⟩ := matchedCount_between "bra" "abracadabra"
  exact ⟨hwithin, hcontained (.inl hwithin)⟩

end ErrorHints.Similarity
