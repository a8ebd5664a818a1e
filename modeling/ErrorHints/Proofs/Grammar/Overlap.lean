import ErrorHints.Grammar.Table
import ErrorHints.Proofs.Grammar.RoundTrip
import ErrorHints.Proofs.Pattern.Outline
import Mathlib.Data.List.Nodup

/-!
# Messages of several phrasings

Standard phrasings are meant to share no message. All pairs of them are apart but one: an
instance of a class called `class` and a class called `instance` are said to lack an attribute
in the same words. These are the only messages that two standard phrasings accept. Both
phrasings are of one kind, so the kinds are kept apart even then, but the fields of such a
message are those of the phrasing that was added first.

Results:
* `eq_or_ambiguous`: two standard phrasings accept no message but the ambiguous ones.
* `matching_of_ambiguous`: an ambiguous message is accepted by exactly two.
* `matching_standard`: how many phrasings accept a message, and when their order matters.
-/
namespace ErrorHints.Grammar

open Pattern

/-! ## Ambiguous messages -/

/-- A text of word characters, at least one. -/
def IsWord (w : List Char) : Prop := w ≠ [] ∧ ∀ c ∈ w, CharSet.word.contains c

instance (w : List Char) : Decidable (IsWord w) :=
  decidable_of_iff (w ≠ [] ∧ w.all CharSet.word.contains) (by rw [IsWord, List.all_eq_true])

/-- The messages about an attribute that is missing from a class called `instance`, or from an
instance of a class called `class`. -/
def Ambiguous (m : String) : Prop :=
  ∃ a : String, m = "class instance has no attribute '" ++ a ++ "'" ∧ IsWord a.toList

example : Ambiguous "class instance has no attribute 'x'" :=
  ⟨"x", by decide, by decide +kernel⟩

section Words

variable {p q : Pattern FieldName} {w : List Char}

theorem exists_renders_seq : (∃ vs, (Pattern.seq p q).Renders w vs) ↔
    ∃ s t, w = s ++ t ∧ (∃ u, p.Renders s u) ∧ ∃ v, q.Renders t v := by
  simp only [renders_seq_iff]
  constructor
  · intro h
    obtain ⟨_, s, t, u, v, hs, ht, hw, -⟩ := h
    exact ⟨s, t, hw, ⟨u, hs⟩, v, ht⟩
  · intro h
    obtain ⟨s, t, hw, ⟨u, hs⟩, v, ht⟩ := h
    exact ⟨_, s, t, u, v, hs, ht, hw, rfl⟩

theorem exists_renders_say {s : String} : (∃ vs, (say s).Renders w vs) ↔ w = s.toList := by
  simp [say, ofString]

theorem exists_renders_name {f : FieldName} : (∃ vs, (name f).Renders w vs) ↔ IsWord w := by
  simp only [name, identifier, renders_group_iff]
  constructor
  · intro h
    obtain ⟨_, u, hu, -⟩ := h
    exact ⟨hu.ne_nil rfl, hu.mem_run rfl⟩
  · intro h
    exact ⟨_, [], renders_run (by decide) h.2 fun _ => h.1, rfl⟩

end Words

variable {m : String}

theorem oldInstance_mem : oldInstance ∈ standardPhrasings :=
  List.mem_of_getElem? (i := 10) rfl

theorem oldClass_mem : oldClass ∈ standardPhrasings :=
  List.mem_of_getElem? (i := 11) rfl

theorem accepts_oldInstance_iff : oldInstance.accepts m ↔ ∃ t a, IsWord t ∧ IsWord a ∧
    m.toList = t ++ (" instance has no attribute '".toList ++ (a ++ "'".toList)) := by
  rw [Phrasing.accepts_iff (isExact_standard oldInstance_mem)]
  simp only [oldInstance, phrasing, renders_whole_iff, Pattern.all, exists_renders_seq,
    exists_renders_name, exists_renders_say]
  constructor
  · intro h
    obtain ⟨t, _, hm, ht, _, _, rfl, rfl, a, _, rfl, ha, rfl⟩ := h
    exact ⟨t, a, ht, ha, hm⟩
  · intro h
    obtain ⟨t, a, ht, ha, hm⟩ := h
    exact ⟨t, _, hm, ht, _, _, rfl, rfl, a, _, rfl, ha, rfl⟩

theorem accepts_oldClass_iff : oldClass.accepts m ↔ ∃ c a, IsWord c ∧ IsWord a ∧
    m.toList = "class ".toList ++ (c ++ (" has no attribute '".toList ++ (a ++ "'".toList))) := by
  rw [Phrasing.accepts_iff (isExact_standard oldClass_mem)]
  simp only [oldClass, phrasing, renders_whole_iff, Pattern.all, exists_renders_seq,
    exists_renders_name, exists_renders_say]
  constructor
  · intro h
    obtain ⟨_, _, hm, rfl, c, _, rfl, hc, _, _, rfl, rfl, a, _, rfl, ha, rfl⟩ := h
    exact ⟨c, a, hc, ha, hm⟩
  · intro h
    obtain ⟨c, a, hc, ha, hm⟩ := h
    exact ⟨_, _, hm, rfl, c, _, rfl, hc, _, _, rfl, rfl, a, _, rfl, ha, rfl⟩

theorem isWord_iff {w : List Char} : IsWord w ↔ w ≠ [] ∧ w.all Unicode.isWord := by
  simp only [IsWord, CharSet.contains_word, List.all_eq_true]

theorem isWord_class : IsWord "class".toList := by
  rw [isWord_iff]
  decide

theorem isWord_instance : IsWord "instance".toList := by
  rw [isWord_iff]
  decide

/-- A space ends every word. -/
theorem not_contains_word_space : CharSet.word.contains ' ' = false := by
  rw [CharSet.contains_word]
  decide

/-- Words that are followed by a space are equal if they begin one text. -/
theorem word_eq {s t x y : List Char} (hs : IsWord s) (ht : IsWord t)
    (h : s ++ ' ' :: x = t ++ ' ' :: y) : s = t ∧ x = y := by
  obtain rfl := run_eq hs.2 ht.2 not_contains_word_space not_contains_word_space h
  exact ⟨rfl, (List.cons.inj (List.append_cancel_left h)).2⟩

/-- Only ambiguous messages are accepted by both phrasings. -/
theorem accepts_both_iff : oldInstance.accepts m ∧ oldClass.accepts m ↔ Ambiguous m := by
  rw [accepts_oldInstance_iff, accepts_oldClass_iff]
  constructor
  · intro h
    obtain ⟨⟨t, a, ht, ha, hm⟩, c, b, hc, -, hm'⟩ := h
    -- both begin with a word and a space
    have hspaced : t ++ ' ' :: ("instance has no attribute '".toList ++ (a ++ "'".toList)) =
        "class".toList ++ ' ' :: (c ++ (" has no attribute '".toList ++ (b ++ "'".toList))) :=
      hm.symm.trans hm'
    obtain ⟨rfl, -⟩ := word_eq ht isWord_class hspaced
    refine ⟨String.ofList a, String.toList_inj.1 ?_, by rwa [String.toList_ofList]⟩
    rw [hm]
    simp
  · intro h
    obtain ⟨a, rfl, ha⟩ := h
    have hm : ("class instance has no attribute '" ++ a ++ "'").toList =
        "class instance has no attribute '".toList ++ (a.toList ++ "'".toList) := by
      rw [String.toList_append, String.toList_append, List.append_assoc]
    exact ⟨⟨_, _, isWord_class, ha, hm⟩, _, _, isWord_instance, ha, hm⟩

/-! ## Two standard phrasings -/

theorem nodup_ids_standard : (standardPhrasings.map (·.id)).Nodup := by decide +kernel

theorem eq_of_id_eq {p q : Phrasing} (hp : p ∈ standardPhrasings) (hq : q ∈ standardPhrasings)
    (h : p.id = q.id) : p = q :=
  List.inj_on_of_nodup_map nodup_ids_standard hp hq h

/-- All pairs of standard phrasings are apart but one. -/
theorem apart_standard : standardPhrasings.Pairwise fun p q =>
    p.pattern.apart q.pattern ∨ p.id = oldInstance.id ∧ q.id = oldClass.id := by
  decide +kernel

/-- The message is not accepted by both phrasings, unless they are one or it is ambiguous. -/
def AcceptedOnce (m : String) (p q : Phrasing) : Prop :=
  p.accepts m → q.accepts m →
    p = q ∨ Ambiguous m ∧ (p = oldInstance ∧ q = oldClass ∨ p = oldClass ∧ q = oldInstance)

theorem AcceptedOnce.flip {p q : Phrasing} (h : AcceptedOnce m p q) : AcceptedOnce m q p := by
  intro hq hp
  exact (h hp hq).imp Eq.symm fun h => ⟨h.1, h.2.symm.imp And.symm And.symm⟩

/-- Two standard phrasings accept no message but the ambiguous ones. -/
theorem eq_or_ambiguous {p q : Phrasing} (hp : p ∈ standardPhrasings)
    (hq : q ∈ standardPhrasings) : AcceptedOnce m p q := by
  have hpair : standardPhrasings.Pairwise (AcceptedOnce m) := by
    refine apart_standard.imp_of_mem ?_
    intro p q hp hq h hpm hqm
    rcases h with h | ⟨h, h'⟩
    · obtain ⟨us, hus⟩ := (Phrasing.accepts_iff (isExact_standard hp)).1 hpm
      obtain ⟨vs, hvs⟩ := (Phrasing.accepts_iff (isExact_standard hq)).1 hqm
      exact absurd hvs (not_renders_of_apart h hus)
    · obtain rfl := eq_of_id_eq hp oldInstance_mem h
      obtain rfl := eq_of_id_eq hq oldClass_mem h'
      exact .inr ⟨accepts_both_iff.1 ⟨hpm, hqm⟩, .inl ⟨rfl, rfl⟩⟩
  exact hpair.forall_of_forall_of_flip (fun p _ _ _ => .inl rfl) (hpair.imp fun h => h.flip) hp hq

/-- An ambiguous message is accepted by two standard phrasings. -/
theorem accepts_iff_of_ambiguous (h : Ambiguous m) {p : Phrasing} (hp : p ∈ standardPhrasings) :
    p.accepts m ↔ p.id = oldInstance.id ∨ p.id = oldClass.id := by
  obtain ⟨hi, hc⟩ := accepts_both_iff.2 h
  constructor
  · intro hpm
    rcases eq_or_ambiguous hp oldInstance_mem hpm hi with rfl | ⟨-, ⟨rfl, -⟩ | ⟨rfl, -⟩⟩
    · exact .inl rfl
    · exact .inl rfl
    · exact .inr rfl
  · intro hid
    rcases hid with hid | hid
    · rwa [eq_of_id_eq hp oldInstance_mem hid]
    · rwa [eq_of_id_eq hp oldClass_mem hid]

/-! ## Tables of the standard phrasings -/

/-- In whatever order they are added, the standard phrasings are all kept. -/
theorem matching_of_perm {ps : List Phrasing} (h : ps.Perm standardPhrasings) (m : String) :
    (ofPhrasings ps).matching m = (ps.filter (·.accepts m)).map Phrasing.entry :=
  matching_ofPhrasings ((h.map _).nodup_iff.2 nodup_ids_standard) m

theorem phrasingsFor_standard (k : Kind) :
    standard.phrasingsFor k = (standardPhrasings.filter (·.kind = k)).map Phrasing.entry := by
  rw [standard, (filed_ofPhrasings standardPhrasings k).2, toList_ofPhrasings nodup_ids_standard,
    List.filter_map]
  rfl

theorem classify_standard (k : Kind) (m : String) :
    standard.classify k m =
      ((standardPhrasings.filter (·.kind = k)).findSome? (·.captures? m)).getD .empty := by
  rw [classify, phrasingsFor_standard, List.findSome?_map]
  rfl

theorem matching_perm {ps : List Phrasing} (h : ps.Perm standardPhrasings) (m : String) :
    ((ofPhrasings ps).matching m).Perm (standard.matching m) := by
  rw [standard, matching_of_perm h, matching_of_perm (.refl _)]
  exact (h.filter _).map _

theorem length_matching_le_one (h : ¬ Ambiguous m) : (standard.matching m).length ≤ 1 := by
  rw [standard, matching_of_perm (.refl _), List.length_map]
  have hnodup : (standardPhrasings.filter (·.accepts m)).Nodup :=
    (List.Nodup.of_map _ nodup_ids_standard).filter _
  match hl : standardPhrasings.filter (·.accepts m) with
  | [] | [_] => simp [hl]
  | p :: q :: rest =>
    have hmem : ∀ x ∈ p :: q :: rest, x ∈ standardPhrasings ∧ x.accepts m := fun x hx =>
      List.mem_filter.1 (hl ▸ hx)
    obtain ⟨hp, hpm⟩ := hmem p (by simp)
    obtain ⟨hq, hqm⟩ := hmem q (by simp)
    rcases eq_or_ambiguous hp hq hpm hqm with rfl | ⟨ha, -⟩
    · rw [hl] at hnodup
      simp at hnodup
    · exact absurd ha h

theorem filter_of_ambiguous (h : Ambiguous m) : standardPhrasings.filter (·.accepts m) =
    standardPhrasings.filter fun p => p.id = oldInstance.id ∨ p.id = oldClass.id := by
  refine List.filter_congr fun p hp => ?_
  rw [Bool.eq_iff_iff, accepts_iff_of_ambiguous h hp, decide_eq_true_iff]

/-- An ambiguous message is accepted by exactly two. -/
theorem matching_of_ambiguous (h : Ambiguous m) :
    (standard.matching m).map (·.id) = ["attr.old_instance", "attr.old_class"] := by
  rw [standard, matching_of_perm (.refl _), filter_of_ambiguous h]
  decide +kernel

/-- What accepts a message is a standard phrasing. -/
theorem exists_phrasing_of_mem_matching {ps : List Phrasing} (h : ps.Perm standardPhrasings)
    {e : Entry} (he : e ∈ (ofPhrasings ps).matching m) :
    ∃ p ∈ standardPhrasings, p.accepts m ∧ p.entry = e := by
  rw [matching_of_perm h] at he
  obtain ⟨p, hp, rfl⟩ := List.mem_map.1 he
  obtain ⟨hps, hpm⟩ := List.mem_filter.1 hp
  exact ⟨p, h.mem_iff.1 hps, hpm, rfl⟩

/-! ## Classification -/

/-- A message is read as one of one kind only. -/
theorem classify_eq_empty {k k' : Kind} (hk : (standard.classify k m).isMatch) (hne : k' ≠ k) :
    standard.classify k' m = .empty := by
  rw [Fields.isMatch, standard, entry_classify (filed_ofPhrasings _), Option.isSome_map,
    Option.isSome_iff_exists] at hk
  obtain ⟨e, he⟩ := hk
  obtain ⟨he, hek⟩ := List.mem_filter.1 (List.mem_of_head? he)
  obtain ⟨p, hps, hpm, rfl⟩ := exists_phrasing_of_mem_matching (.refl _) he
  have hnone : ((ofPhrasings standardPhrasings).matching m).filter (·.kind = k') = [] := by
    refine List.filter_eq_nil_iff.2 fun e he hek' => hne ?_
    obtain ⟨q, hqs, hqm, rfl⟩ := exists_phrasing_of_mem_matching (.refl _) he
    have hpq : p.kind = q.kind := by
      rcases eq_or_ambiguous hps hqs hpm hqm with rfl | ⟨-, ⟨rfl, rfl⟩ | ⟨rfl, rfl⟩⟩ <;> rfl
    exact ((of_decide_eq_true hek').symm.trans hpq.symm).trans (of_decide_eq_true hek)
  rw [standard, classify_eq (filed_ofPhrasings _), hnone]
  rfl

/-- The order of the standard phrasings decides on no other message. -/
theorem classify_perm (h : ¬ Ambiguous m) {ps : List Phrasing} (hp : ps.Perm standardPhrasings)
    (k : Kind) : (ofPhrasings ps).classify k m = standard.classify k m := by
  have heq : (ofPhrasings ps).matching m = standard.matching m := by
    have hlen := length_matching_le_one h
    have hperm := matching_perm hp m
    match hl : standard.matching m with
    | [] => exact (hl ▸ hperm).eq_nil
    | [p] => exact List.perm_singleton.1 (hl ▸ hperm)
    | _ :: _ :: _ => rw [hl] at hlen; simp at hlen
  rw [standard, classify_eq (filed_ofPhrasings _), classify_eq (filed_ofPhrasings _), heq]
  rfl

/-- The fields of an ambiguous message are those of the phrasing that was added first. -/
theorem entry_of_ambiguous (h : Ambiguous m) {ps : List Phrasing}
    (hp : ps.Perm standardPhrasings) :
    ((ofPhrasings ps).classify .attributeMissing m).entry =
      (((ofPhrasings ps).matching m).map (·.id)).head? := by
  rw [entry_classify (filed_ofPhrasings _), List.head?_map, List.filter_eq_self.2]
  intro e he
  obtain ⟨p, hps, hpm, rfl⟩ := exists_phrasing_of_mem_matching hp he
  rcases (accepts_iff_of_ambiguous h hps).1 hpm with hid | hid
  · rw [eq_of_id_eq hps oldInstance_mem hid]; rfl
  · rw [eq_of_id_eq hps oldClass_mem hid]; rfl

theorem classify_reverse_ne (h : Ambiguous m) :
    (ofPhrasings standardPhrasings.reverse).classify .attributeMissing m ≠
      standard.classify .attributeMissing m := by
  intro heq
  have hids := matching_of_ambiguous h
  have hentry := congrArg Fields.entry heq
  rw [entry_of_ambiguous h (List.reverse_perm _), standard, entry_of_ambiguous h (.refl _),
    matching_of_perm (List.reverse_perm _), List.filter_reverse, List.map_reverse,
    ← matching_of_perm (.refl _), List.map_reverse] at hentry
  rw [standard] at hids
  rw [hids] at hentry
  revert hentry
  decide

/-- At most one standard phrasing accepts a message, unless the message is ambiguous; then two
phrasings do. Even so, a message is never read as one of two kinds; but the order in which the
phrasings are added matters exactly to the ambiguous messages. -/
theorem matching_standard (m : String) :
    ((standard.matching m).length ≤ 1 ↔ ¬ Ambiguous m) ∧
    (Ambiguous m → (standard.matching m).map (·.id) = ["attr.old_instance", "attr.old_class"]) ∧
    (∀ k k' : Kind, (standard.classify k m).isMatch → k' ≠ k →
      standard.classify k' m = .empty) ∧
    ((∀ ps : List Phrasing, ps.Perm standardPhrasings →
      ∀ k : Kind, (ofPhrasings ps).classify k m = standard.classify k m) ↔ ¬ Ambiguous m) := by
  refine ⟨⟨fun hlen h => ?_, length_matching_le_one⟩, matching_of_ambiguous,
    fun k k' => classify_eq_empty, fun hall h => ?_, fun h ps hp k => classify_perm h hp k⟩
  · have hids := congrArg List.length (matching_of_ambiguous h)
    rw [List.length_map] at hids
    rw [hids] at hlen
    exact absurd hlen (by decide)
  · exact classify_reverse_ne h (hall _ (List.reverse_perm _) _)

end ErrorHints.Grammar
