import ErrorHints.Proofs.Similarity.Exhaustive
import ErrorHints.Similarity.CloseMatches
import Mathlib.Data.Multiset.UnionInter

/-!
# The cheap bounds on likeness

Before a candidate is scored, two bounds are looked at that are cheaper to find. They never
turn away a candidate that the score would admit: the blocks that are matched, one after the
other, make up a common subsequence, so they use every element at most as often as both
sequences have it. What is shared is counted exactly, and it is at most the shorter length.

Results:
* `exists_sublist_matchedCount`: what is matched is the length of a common subsequence.
* `sharedCount_eq_card_inter`: what is shared is counted with multiplicity.
* `closeMatches_eq_fullyScored`: the bounds are bounds, and leaving them out changes no match.
-/
namespace ErrorHints.Similarity

variable {α : Type}

/-! ## A common subsequence -/

/-- A common block holds the same elements in both sequences. -/
theorem take_drop_eq_of_common {a b : List α} {m : Block} (h : m.Common (Agree a b)) :
    (a.drop m.aStart).take m.size = (b.drop m.bStart).take m.size := by
  apply List.ext_getElem?
  intro t
  rw [List.getElem?_take, List.getElem?_take, List.getElem?_drop, List.getElem?_drop]
  split
  · rename_i ht
    obtain ⟨x, hx, hx'⟩ := h t ht
    rw [hx, hx']
  · rfl

/-- What is chosen before and behind a stretch of a sequence goes together with the stretch. -/
theorem sublist_around {a s t : List α} {i n : Nat} (hs : s.Sublist (a.take i))
    (ht : t.Sublist (a.drop (i + n))) : (s ++ ((a.drop i).take n ++ t)).Sublist a := by
  have h := hs.append (ht.append_left ((a.drop i).take n))
  rwa [← List.drop_drop, List.take_append_drop, List.take_append_drop] at h

variable [DecidableEq α]

/-- The blocks of the exhaustive search make up a common subsequence. -/
theorem exists_sublist_commonCount (a b : List α) :
    ∃ s : List α, s.Sublist a ∧ s.Sublist b ∧ s.length = commonCount a b := by
  fun_induction commonCount a b with
  | case1 a b h m ihbefore ihafter =>
    obtain ⟨s, hsa, hsb, hs⟩ := ihbefore
    obtain ⟨t, hta, htb, ht⟩ := ihafter
    have hblock := take_drop_eq_of_common (isFirstLongest_longestCommon a b).common
    have hle : m.aStart + m.size ≤ a.length :=
      (longestCommon_le (longestCommon_size_ne_zero_iff.2 h)).1
    refine ⟨s ++ ((a.drop m.aStart).take m.size ++ t), sublist_around hsa hta, ?_, ?_⟩
    · rw [show (a.drop m.aStart).take m.size = (b.drop m.bStart).take m.size from hblock]
      exact sublist_around hsb htb
    · have hsize : ((a.drop m.aStart).take m.size).length = m.size := by
        rw [List.length_take, List.length_drop]
        omega
      rw [List.length_append, List.length_append, hs, ht, hsize]
      omega
  | case2 a b h => exact ⟨[], List.nil_sublist a, List.nil_sublist b, rfl⟩

section

variable [Hashable α] (a b : List α)

/-- The blocks that are matched make up a common subsequence. -/
theorem exists_sublist_matchedCount :
    ∃ s : List α, s.Sublist a ∧ s.Sublist b ∧ s.length = matchedCount a b := by
  rw [matchedCount_eq_countIn, countIn_whole]
  exact exists_sublist_commonCount a b

/-! ## What is shared -/

/-- A stock serves the elements that it has in common with the sequence. -/
theorem servedIn_eq {stock : Stock α} {elements : Multiset α}
    (h : ∀ x, stock.left x = elements.count x) (total : Nat) :
    servedIn stock a total = total + ((a : Multiset α) ∩ elements).card := by
  induction a generalizing stock elements total with
  | nil => simp [servedIn]
  | cons x a ih =>
    unfold servedIn
    split
    · rename_i hx
      have hnone : x ∉ elements := by rwa [h, Multiset.count_eq_zero] at hx
      rw [ih h, ← Multiset.cons_coe, Multiset.cons_inter_of_neg _ hnone]
    · rename_i hx
      have hsome : x ∈ elements := by rwa [h, ← ne_eq, Multiset.count_ne_zero] at hx
      have hserved : ∀ y, (stock.serve x).left y = (elements.erase x).count y := by
        intro y
        rw [Stock.left_serve, h]
        by_cases hxy : x = y
        · rw [if_pos hxy, hxy, Multiset.count_erase_self]
        · rw [if_neg hxy, Multiset.count_erase_of_ne (Ne.symm hxy)]
      rw [ih hserved, ← Multiset.cons_coe, Multiset.cons_inter_of_pos _ hsome, Multiset.card_cons]
      omega

/-- What is shared is counted with multiplicity. -/
theorem sharedCount_eq_card_inter : sharedCount a b = ((a : Multiset α) ∩ b).card := by
  have h : ∀ x, (Stock.of b).left x = (b : Multiset α).count x := by
    intro x
    rw [Stock.left_of, Multiset.coe_count]
  rw [sharedCount, servedIn_eq a h, Nat.zero_add]

theorem matchedCount_le_sharedCount : matchedCount a b ≤ sharedCount a b := by
  obtain ⟨s, hsa, hsb, hs⟩ := exists_sublist_matchedCount a b
  rw [sharedCount_eq_card_inter, ← hs, ← Multiset.coe_card]
  apply Multiset.card_le_card
  exact Multiset.le_inter (Multiset.coe_le.2 hsa.subperm) (Multiset.coe_le.2 hsb.subperm)

theorem sharedCount_le_shorterLength : sharedCount a b ≤ shorterLength a b := by
  rw [sharedCount_eq_card_inter, shorterLength, Nat.le_min]
  constructor
  · exact Multiset.card_le_card Multiset.inter_le_left
  · exact Multiset.card_le_card Multiset.inter_le_right

/-! ## Ratios -/

theorem sharedRatio_le_lengthRatio : sharedRatio a b ≤ lengthRatio a b := by
  apply Score.ofCounts_mono (sharedCount_le_shorterLength a b)
  unfold shorterLength
  omega

theorem ratio_le_sharedRatio : ratio a b ≤ sharedRatio a b := by
  apply Score.ofCounts_mono (matchedCount_le_sharedCount a b)
  have := sharedCount_le_shorterLength a b
  unfold shorterLength at this
  omega

end

-- characters are hashed by their code, whatever other ways are known
attribute [local instance (high)] instHashableChar

/-- The bounds turn away no candidate that the ratio admits. -/
theorem closeScore?_eq (cutoff : Cutoff) (candidate target : List Char) :
    closeScore? cutoff candidate target =
      if cutoff.admits (ratio candidate target) then some (ratio candidate target) else none := by
  by_cases h : cutoff.admits (ratio candidate target)
  · have hshared := Cutoff.admits_mono (ratio_le_sharedRatio candidate target) h
    have hlength := Cutoff.admits_mono (sharedRatio_le_lengthRatio candidate target) hshared
    simp [closeScore?, h, hshared, hlength]
  · simp [closeScore?, h]

/-- The closest matches if every candidate is scored. -/
def fullyScored (target : String) (candidates : List String) (bounds : MatchBounds) :
    List CloseMatch :=
  if bounds.maxResults = 0 then []
  else
    let considered := (candidates.take maxCandidates).filter (· ≠ target)
    let close := considered.filterMap fun text =>
      let score := ratio text.toList target.toList
      if bounds.cutoff.admits score then some ⟨text, score⟩ else none
    (close.mergeSort CloseMatch.atLeast).take bounds.maxResults

/-- What is matched is at most what is shared, that is, the size of the intersection with
multiplicity, and this is at most the shorter length. So the closest matches are found as if
every candidate were scored. -/
theorem closeMatches_eq_fullyScored :
    (∀ a b : List Char,
      matchedCount a b ≤ sharedCount a b ∧
      sharedCount a b = ((a : Multiset Char) ∩ b).card ∧
      sharedCount a b ≤ shorterLength a b) ∧
    ∀ (target : String) (candidates : List String) (bounds : MatchBounds),
      closeMatches target candidates bounds = fullyScored target candidates bounds := by
  constructor
  · intro a b
    exact ⟨matchedCount_le_sharedCount a b, sharedCount_eq_card_inter a b,
      sharedCount_le_shorterLength a b⟩
  · intro target candidates bounds
    have hscore : ∀ text : String,
        (closeScore? bounds.cutoff text.toList target.toList).map (CloseMatch.mk text) =
          if bounds.cutoff.admits (ratio text.toList target.toList) then
            some ⟨text, ratio text.toList target.toList⟩
          else none := by
      intro text
      rw [closeScore?_eq]
      split <;> rfl
    simp only [closeMatches, fullyScored, hscore]

end ErrorHints.Similarity
