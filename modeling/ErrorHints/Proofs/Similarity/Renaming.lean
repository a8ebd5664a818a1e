import ErrorHints.Proofs.Similarity.Ranking
import Mathlib.Logic.Equiv.Basic

/-!
# Other characters, the same scores

Which characters two texts are made of does not matter for their score, only which of them are
equal. If every character is replaced by another one and different characters stay different, the
two texts agree at the same places, so the same blocks are found and counted. Hence the close
candidates stay close, at their places and with their scores, and the ranking of the closest
matches stays as it is.

Results:
* `longestCommon_map`: the longest common block keeps its place and its size.
* `matchedCount_map`, `similarity_map`: so does the count, and with it the score.
* `IsRanking.map`: the ranking of the renamed candidates is the renamed ranking.
* `closeMatches_map_of_injective`: the same candidates are selected, in the same order.
-/
namespace ErrorHints.Similarity

/-! ## Blocks and counts -/

section

variable {α β : Type} [DecidableEq α] [DecidableEq β] {f : α → β} (hf : Function.Injective f)

include hf

theorem commonFront_map (a b : List α) :
    commonFront (a.map f) (b.map f) = commonFront a b := by
  induction a generalizing b with
  | nil => rfl
  | cons x a ih =>
    cases b with
    | nil => rfl
    | cons y b => simp only [List.map_cons, commonFront, hf.eq_iff, ih]

/-- The longest common block keeps its place and its size. -/
theorem longestCommon_map (a b : List α) :
    longestCommon (a.map f) (b.map f) = longestCommon a b := by
  have hblocks : commonBlocks (a.map f) (b.map f) = commonBlocks a b := by
    simp only [commonBlocks, List.length_map, ← List.map_drop, commonFront_map hf]
  rw [longestCommon, hblocks, longestCommon]

theorem commonCount_map (a b : List α) :
    commonCount (a.map f) (b.map f) = commonCount a b := by
  fun_induction commonCount a b with
  | case1 a b h m ihbefore ihafter =>
    have hs : (longestCommon (a.map f) (b.map f)).size ≠ 0 := by
      rw [longestCommon_map hf]
      exact longestCommon_size_ne_zero_iff.2 h
    rw [commonCount_of_size_ne_zero hs, longestCommon_map hf, ← List.map_take, ← List.map_take,
      ← List.map_drop, ← List.map_drop, ihbefore, ihafter]
  | case2 a b h =>
    apply commonCount_of_size_eq_zero
    rw [longestCommon_map hf]
    exact Decidable.not_not.1 fun hs => h (longestCommon_size_ne_zero_iff.1 hs)

variable [Hashable α] [Hashable β]

theorem matchedCount_map (a b : List α) :
    matchedCount (a.map f) (b.map f) = matchedCount a b := by
  rw [matchedCount_eq_countIn, countIn_whole, commonCount_map hf, matchedCount_eq_countIn,
    countIn_whole]

theorem ratio_map (a b : List α) : ratio (a.map f) (b.map f) = ratio a b := by
  rw [ratio, matchedCount_map hf, List.length_map, List.length_map, ratio]

end

/-! ## Texts -/

variable {f : Char → Char} (hf : Function.Injective f)

/-- A match, with its place, after the renaming: the text is renamed, place and score are kept. -/
def renamed (f : Char → Char) (p : Nat × CloseMatch) : Nat × CloseMatch :=
  (p.1, ⟨p.2.text.map f, p.2.score⟩)

theorem before_renamed_iff (f : Char → Char) (p q : Nat × CloseMatch) :
    Before (renamed f p) (renamed f q) ↔ Before p q := Iff.rfl

-- characters are hashed by their code, whatever other ways are known
attribute [local instance (high)] instHashableChar

include hf

theorem map_inj_iff {s t : String} : s.map f = t.map f ↔ s = t := by
  rw [← String.toList_inj, String.toList_map, String.toList_map,
    (List.map_injective_iff.2 hf).eq_iff, String.toList_inj]

theorem similarity_map (a b : String) : similarity (a.map f) (b.map f) = similarity a b := by
  rw [similarity, String.toList_map, String.toList_map, ratio_map hf, similarity]

variable {target : String} {candidates : List String} {cutoff : Cutoff}

/-- The renamed candidates that qualify are those that qualified before. -/
theorem qualifies_map_iff {i : Nat} {m : CloseMatch} :
    Qualifies (target.map f) (candidates.map (·.map f)) cutoff i m ↔
      ∃ m', Qualifies target candidates cutoff i m' ∧ renamed f (i, m') = (i, m) := by
  constructor
  · intro h
    obtain ⟨mtext, mscore⟩ := m
    obtain ⟨hi, hgiven, hne, hscore, hadm⟩ := h
    rw [List.getElem?_map, Option.map_eq_some_iff] at hgiven
    obtain ⟨text, htext, rfl⟩ := hgiven
    refine ⟨⟨text, mscore⟩, ⟨hi, htext, ?_, ?_, hadm⟩, rfl⟩
    · exact fun heq => hne ((map_inj_iff hf).2 heq)
    · exact hscore.trans (similarity_map hf text target)
  · rintro ⟨m', ⟨hi, hgiven, hne, hscore, hadm⟩, heq⟩
    cases heq
    refine ⟨hi, ?_, ?_, ?_, hadm⟩
    · rw [List.getElem?_map, hgiven, Option.map_some]
    · exact fun heq => hne ((map_inj_iff hf).1 heq)
    · exact hscore.trans (similarity_map hf m'.text target).symm

/-- The ranking of the renamed candidates is the renamed ranking. -/
theorem IsRanking.map {ranked : List (Nat × CloseMatch)}
    (h : IsRanking target candidates cutoff ranked) :
    IsRanking (target.map f) (candidates.map (·.map f)) cutoff (ranked.map (renamed f)) where
  mem_iff i m := by
    rw [qualifies_map_iff hf, List.mem_map]
    constructor
    · rintro ⟨⟨i', m'⟩, hm', heq⟩
      obtain rfl : i' = i := congrArg Prod.fst heq
      exact ⟨m', (h.mem_iff i' m').1 hm', heq⟩
    · rintro ⟨m', hm', heq⟩
      exact ⟨(i, m'), (h.mem_iff i m').2 hm', heq⟩
  ordered := by
    rw [List.pairwise_map]
    exact h.ordered.imp fun {p q} hpq => (before_renamed_iff f p q).2 hpq

/-- If all characters are renamed and different ones stay different, every score stays the same,
and so does the selection of the closest matches: one ranking of places and scores serves the
texts as they were and the renamed ones, and both selections are the first of it. -/
theorem closeMatches_map_of_injective :
    (∀ a b : String, similarity (a.map f) (b.map f) = similarity a b) ∧
    ∀ (target : String) (candidates : List String) (bounds : MatchBounds),
      ∃ ranked : List (Nat × CloseMatch),
        IsRanking target candidates bounds.cutoff ranked ∧
        IsRanking (target.map f) (candidates.map (·.map f)) bounds.cutoff
          (ranked.map (renamed f)) ∧
        closeMatches target candidates bounds = (ranked.take bounds.maxResults).map Prod.snd ∧
        closeMatches (target.map f) (candidates.map (·.map f)) bounds =
          ((ranked.take bounds.maxResults).map (renamed f)).map Prod.snd := by
  refine ⟨similarity_map hf, fun target candidates bounds => ?_⟩
  have h := isRanking_ranking target candidates bounds.cutoff
  have hmap := h.map hf
  refine ⟨_, h, hmap, closeMatches_of_isRanking h, ?_⟩
  rw [closeMatches_of_isRanking hmap, ← List.map_take]

omit hf in
/-- A character of one byte and one of two bytes change places. -/
theorem closeMatches_map_of_injective_swap :
    Function.Injective (Equiv.swap 'a' 'é') ∧
      similarity ("banana".map (Equiv.swap 'a' 'é')) ("bandana".map (Equiv.swap 'a' 'é')) =
        similarity "banana" "bandana" := by
  have hswap : Function.Injective (Equiv.swap 'a' 'é') := (Equiv.swap 'a' 'é').injective
  exact ⟨hswap, (closeMatches_map_of_injective hswap).1 "banana" "bandana"⟩

end ErrorHints.Similarity
