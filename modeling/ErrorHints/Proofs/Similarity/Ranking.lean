import ErrorHints.Proofs.Similarity.Bounds

/-!
# The ranking of the closest matches

Every candidate that is close enough has a place in the input and a score. Ranked by falling
score, and by place among equal scores, these candidates stand in one order only, since no two
of them have one place; a candidate that is given twice is ranked twice. The closest matches are
the first ones of this ranking.

The sort that finds it compares scores alone. It gives this ranking because it is stable: it
leaves the elements of equal score in the order of their places.

Results:
* `pairwise_mergeSort_of_pairwise`: a stable sort keeps an order among the tied elements.
* `IsRanking.eq`: there is one ranking only.
* `isRanking_ranking`: sorting by score finds it.
* `closeMatches_ranked`: the closest matches are the first ones of it.
-/
namespace ErrorHints.Similarity

/-! ## Stable sorting -/

section

variable {α : Type} {le : α → α → Bool} (trans : ∀ x y z, le x y → le y z → le x z)
  (total : ∀ x y, le x y || le y x)

include trans total

/-- Elements that are tied with each other stay in their order. -/
theorem filter_mergeSort_of_tied {p : α → Bool} (htied : ∀ x y, p x → p y → le x y)
    (l : List α) : (l.mergeSort le).filter p = l.filter p := by
  have hpairs : (l.filter p).Pairwise (fun x y => le x y = true) := by
    rw [List.pairwise_filter]
    exact List.pairwise_of_forall fun x y hx hy => htied x y hx hy
  have hkept := (List.sublist_mergeSort trans total hpairs List.filter_sublist).filter p
  rw [List.filter_filter] at hkept
  simp only [Bool.and_self] at hkept
  have hlen := ((List.mergeSort_perm l le).filter p).length_eq
  exact (hkept.eq_of_length hlen.symm).symm

/-- What is said of all pairs of a list, in their order, is said of the tied pairs afterwards. -/
theorem pairwise_mergeSort_of_pairwise {r : α → α → Prop} {l : List α} (hl : l.Pairwise r) :
    (l.mergeSort le).Pairwise fun x y => le x y ∧ (le y x → r x y) := by
  rw [List.pairwise_iff_forall_sublist]
  intro x y hxy
  have hle := List.pairwise_iff_forall_sublist.1 (List.pairwise_mergeSort trans total l) hxy
  refine ⟨hle, fun hge => ?_⟩
  -- the elements that are tied with `x`, of which `y` is one
  let tied : α → Bool := fun z => le x z && le z x
  have hx : le x x := by simpa using total x x
  have htied : ∀ z z', tied z → tied z' → le z z' := by
    intro z z' hz hz'
    simp only [tied, Bool.and_eq_true] at hz hz'
    exact trans z x z' hz.2 hz'.1
  have hpair : [x, y].filter tied = [x, y] := by simp [tied, hx, hle, hge]
  have hsub := hxy.filter tied
  rw [hpair, filter_mergeSort_of_tied trans total htied] at hsub
  exact List.pairwise_iff_forall_sublist.1 hl (hsub.trans List.filter_sublist)

end

-- characters are hashed by their code, whatever other ways are known
attribute [local instance (high)] instHashableChar

/-! ## Rankings -/

variable {target : String} {candidates : List String} {cutoff : Cutoff}

/-- The candidate given at place `i` is close enough, and `m` is the match that it makes. -/
structure Qualifies (target : String) (candidates : List String) (cutoff : Cutoff) (i : Nat)
    (m : CloseMatch) : Prop where
  considered : i < 4096
  given : candidates[i]? = some m.text
  other : m.text ≠ target
  score_eq : m.score = similarity m.text target
  admitted : cutoff.admits m.score

/-- The one match, with its place, has the higher score, or it has the same score and stands
earlier in the input. -/
def Before (p q : Nat × CloseMatch) : Prop :=
  q.2.score < p.2.score ∨ q.2.score = p.2.score ∧ p.1 < q.1

/-- The list holds the candidates that qualify, each with its place, and best first. -/
structure IsRanking (target : String) (candidates : List String) (cutoff : Cutoff)
    (ranked : List (Nat × CloseMatch)) : Prop where
  mem_iff : ∀ i m, (i, m) ∈ ranked ↔ Qualifies target candidates cutoff i m
  ordered : ranked.Pairwise Before

theorem before_irrefl (p : Nat × CloseMatch) : ¬ Before p p := by
  simp only [Before, Score.lt_def]
  omega

theorem before_asymm {p q : Nat × CloseMatch} (h : Before p q) : ¬ Before q p := by
  simp only [Before, Score.lt_def, ← Score.bits_inj] at *
  omega

variable {ranked ranked' : List (Nat × CloseMatch)}

/-- No place is ranked twice. -/
theorem IsRanking.nodup (h : IsRanking target candidates cutoff ranked) : ranked.Nodup := by
  refine h.ordered.imp fun {p q} hpq => ?_
  rintro rfl
  exact before_irrefl p hpq

/-- There is one ranking only. -/
theorem IsRanking.eq (h : IsRanking target candidates cutoff ranked)
    (h' : IsRanking target candidates cutoff ranked') : ranked = ranked' := by
  have hperm : ranked.Perm ranked' := by
    rw [List.perm_ext_iff_of_nodup h.nodup h'.nodup]
    intro p
    rw [h.mem_iff p.1 p.2, h'.mem_iff p.1 p.2]
  refine List.Perm.eq_of_pairwise ?_ h.ordered h'.ordered hperm
  intro p q _ _ hpq hqp
  exact absurd hqp (before_asymm hpq)

/-- A candidate that is not among the first ones comes behind all of them. -/
theorem IsRanking.before_of_notMem_take (h : IsRanking target candidates cutoff ranked) {k i : Nat}
    {m : CloseMatch} (hm : Qualifies target candidates cutoff i m) (hout : (i, m) ∉ ranked.take k) :
    ∀ p ∈ ranked.take k, Before p (i, m) := by
  intro p hp
  have hmem : (i, m) ∈ ranked.take k ++ ranked.drop k := by
    rw [List.take_append_drop]
    exact (h.mem_iff i m).2 hm
  have hdrop := (List.mem_append.1 hmem).resolve_left hout
  have hordered := h.ordered
  rw [← List.take_append_drop k ranked, List.pairwise_append] at hordered
  exact hordered.2.2 p hp (i, m) hdrop

/-! ## The ranking that is found -/

/-- The match that a candidate makes, if it qualifies. -/
def matchOf? (target : String) (cutoff : Cutoff) (text : String) : Option CloseMatch :=
  if text ≠ target ∧ cutoff.admits (similarity text target) then
    some ⟨text, similarity text target⟩
  else none

theorem matchOf?_eq_some_iff {text : String} {m : CloseMatch} :
    matchOf? target cutoff text = some m ↔
      m.text = text ∧ text ≠ target ∧ m.score = similarity text target ∧ cutoff.admits m.score := by
  obtain ⟨mtext, mscore⟩ := m
  unfold matchOf?
  split
  · next h =>
    simp only [Option.some.injEq, CloseMatch.mk.injEq]
    constructor
    · rintro ⟨rfl, rfl⟩
      exact ⟨rfl, h.1, rfl, h.2⟩
    · rintro ⟨rfl, -, rfl, -⟩
      exact ⟨rfl, rfl⟩
  · next h =>
    simp only [reduceCtorEq, false_iff]
    rintro ⟨rfl, hne, rfl, hadm⟩
    exact h ⟨hne, hadm⟩

/-- The matches of all candidates that qualify, with their places, in the order given. -/
def placedMatches (target : String) (candidates : List String) (cutoff : Cutoff) :
    List (Nat × CloseMatch) :=
  (candidates.take maxCandidates).zipIdx.filterMap fun c =>
    (matchOf? target cutoff c.1).map (c.2, ·)

/-- The matches of all candidates that qualify, sorted by their scores. -/
def ranking (target : String) (candidates : List String) (cutoff : Cutoff) :
    List (Nat × CloseMatch) :=
  (placedMatches target candidates cutoff).mergeSort fun p q => p.2.atLeast q.2

theorem mem_placedMatches_iff {i : Nat} {m : CloseMatch} :
    (i, m) ∈ placedMatches target candidates cutoff ↔ Qualifies target candidates cutoff i m := by
  simp only [placedMatches, List.mem_filterMap, Option.map_eq_some_iff, Prod.mk.injEq,
    List.mem_zipIdx_iff_getElem?, List.getElem?_take]
  constructor
  · rintro ⟨⟨text, i'⟩, hgiven, m', hm, rfl, rfl⟩
    obtain ⟨rfl, hne, hscore, hadm⟩ := matchOf?_eq_some_iff.1 hm
    split at hgiven
    · next hi => exact ⟨hi, hgiven, hne, hscore, hadm⟩
    · cases hgiven
  · intro h
    refine ⟨(m.text, i), ?_, m, ?_, rfl, rfl⟩
    · have hi : i < maxCandidates := h.considered
      rw [if_pos hi]
      exact h.given
    · exact matchOf?_eq_some_iff.2 ⟨rfl, h.other, h.score_eq, h.admitted⟩

theorem pairwise_placedMatches (target : String) (candidates : List String) (cutoff : Cutoff) :
    (placedMatches target candidates cutoff).Pairwise fun p q => p.1 < q.1 := by
  have hplaces : ((candidates.take maxCandidates).zipIdx).Pairwise fun c d => c.2 < d.2 := by
    rw [← List.pairwise_map (f := Prod.snd), List.zipIdx_map_snd]
    exact List.pairwise_lt_range'
  rw [placedMatches, List.pairwise_filterMap]
  refine hplaces.imp fun {c d} hcd p hp q hq => ?_
  obtain ⟨m, -, rfl⟩ := Option.map_eq_some_iff.1 hp
  obtain ⟨m', -, rfl⟩ := Option.map_eq_some_iff.1 hq
  exact hcd

theorem atLeast_trans (m n o : CloseMatch) (h : m.atLeast n) (h' : n.atLeast o) : m.atLeast o := by
  simp only [CloseMatch.atLeast, decide_eq_true_eq, Score.le_def] at *
  omega

theorem atLeast_total (m n : CloseMatch) : m.atLeast n || n.atLeast m := by
  simp only [CloseMatch.atLeast, Bool.or_eq_true, decide_eq_true_eq, Score.le_def]
  omega

theorem isRanking_ranking (target : String) (candidates : List String) (cutoff : Cutoff) :
    IsRanking target candidates cutoff (ranking target candidates cutoff) where
  mem_iff i m := by rw [ranking, List.mem_mergeSort, mem_placedMatches_iff]
  ordered := by
    have hsorted := pairwise_mergeSort_of_pairwise
      (fun p q s : Nat × CloseMatch => atLeast_trans p.2 q.2 s.2) (fun p q => atLeast_total p.2 q.2)
      (pairwise_placedMatches target candidates cutoff)
    refine hsorted.imp fun {p q} hpq => ?_
    obtain ⟨hle, htied⟩ := hpq
    simp only [CloseMatch.atLeast, decide_eq_true_eq, Score.le_def] at hle htied
    rcases Nat.lt_or_eq_of_le hle with hlt | heq
    · exact .inl hlt
    · exact .inr ⟨Score.bits_inj.1 heq, htied (Nat.le_of_eq heq.symm)⟩

/-! ## The closest matches -/

theorem map_closeScore? (text : String) :
    (closeScore? cutoff text.toList target.toList).map (CloseMatch.mk text) =
      if cutoff.admits (similarity text target) then some ⟨text, similarity text target⟩
      else none := by
  rw [closeScore?_eq]
  unfold similarity
  split <;> rfl

/-- Dropping the target and scoring the rest finds the matches that the candidates make. -/
theorem filterMap_closeScore? (texts : List String) :
    ((texts.filter (· ≠ target)).filterMap fun text =>
        (closeScore? cutoff text.toList target.toList).map (CloseMatch.mk text)) =
      texts.filterMap (matchOf? target cutoff) := by
  rw [List.filterMap_filter]
  apply List.filterMap_congr
  intro text _
  rw [map_closeScore?, matchOf?]
  by_cases h : text = target <;> simp [h]

/-- Without their places, the matches are those that the candidates make. -/
theorem map_snd_placedMatches (target : String) (candidates : List String) (cutoff : Cutoff) :
    (placedMatches target candidates cutoff).map Prod.snd =
      (candidates.take maxCandidates).filterMap (matchOf? target cutoff) := by
  have hdrop : ∀ c : String × Nat,
      ((matchOf? target cutoff c.1).map (c.2, ·)).map Prod.snd = matchOf? target cutoff c.1 := by
    intro c
    cases matchOf? target cutoff c.1 <;> rfl
  rw [placedMatches, List.map_filterMap]
  simp only [hdrop]
  conv_rhs => rw [← List.zipIdx_map_fst 0 (candidates.take maxCandidates), List.filterMap_map]
  rfl

/-- The closest matches are the first ones of any ranking. -/
theorem closeMatches_of_isRanking {bounds : MatchBounds}
    (h : IsRanking target candidates bounds.cutoff ranked) :
    closeMatches target candidates bounds = (ranked.take bounds.maxResults).map Prod.snd := by
  rw [h.eq (isRanking_ranking target candidates bounds.cutoff), ranking, List.map_take,
    List.map_mergeSort (s := CloseMatch.atLeast) fun p _ q _ => rfl, map_snd_placedMatches,
    ← filterMap_closeScore?, closeMatches]
  split
  · next hnone => rw [hnone, List.take_zero]
  · rfl

/-- The candidates that qualify, each with its place, have one ranking by falling score and, among
equal scores, by place. The closest matches are the first `maxResults` of it. So the target is
never one of them, and each candidate that qualifies and is left out has a lower score than each
of them, or the same score and a later place. -/
theorem closeMatches_ranked (target : String) (candidates : List String) (bounds : MatchBounds) :
    ∃ ranked : List (Nat × CloseMatch),
      IsRanking target candidates bounds.cutoff ranked ∧
      (∀ other, IsRanking target candidates bounds.cutoff other → other = ranked) ∧
      closeMatches target candidates bounds = (ranked.take bounds.maxResults).map Prod.snd ∧
      (∀ m ∈ closeMatches target candidates bounds, m.text ≠ target) ∧
      ∀ i m, Qualifies target candidates bounds.cutoff i m →
        (i, m) ∉ ranked.take bounds.maxResults →
        ∀ p ∈ ranked.take bounds.maxResults, Before p (i, m) := by
  have h := isRanking_ranking target candidates bounds.cutoff
  refine ⟨ranking target candidates bounds.cutoff, h, ?_, closeMatches_of_isRanking h, ?_, ?_⟩
  · intro other hother
    exact hother.eq h
  · intro m hm
    exact (of_mem_closeMatches hm).2
  · intro i m hm hout
    exact h.before_of_notMem_take hm hout

end ErrorHints.Similarity
