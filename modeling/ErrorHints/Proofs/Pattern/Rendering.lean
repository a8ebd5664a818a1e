import ErrorHints.Proofs.Pattern.Search

/-!
# Texts written after a pattern

`p.Renders w vs` says that the text `w` is written after the pattern `p`: its literal parts
as they stand, for each of its groups a text that the group allows, and some choice where
the pattern leaves one. `vs` holds the texts of the groups that take part, in the order in
which the groups begin. Nothing is said of how a text is read; a place adds no character.

Results:
* `names_sublist`: a pattern whose rounds capture nothing gives each group at most once, in order.
* `renders_of_captures?`: what is captured from a text are the values that it was written with.
* `isSome_captures?_of_renders`: every text that is written after a pattern is found.
-/
namespace ErrorHints.Pattern

variable {ν : Type}

/-- The text is written after the pattern, with the given values of its groups. -/
inductive Renders : Pattern ν → List Char → List (ν × List Char) → Prop
  | text (cs : List Char) : Renders (text cs) cs []
  | one {set : CharSet} {c : Char} (hc : set.contains c) : Renders (one set) [c] []
  | place (anchor : Anchor) : Renders (place anchor) [] []
  | seq {p q : Pattern ν} {s t : List Char} {u v : List (ν × List Char)} (hp : Renders p s u)
      (hq : Renders q t v) : Renders (seq p q) (s ++ t) (u ++ v)
  | left {p q : Pattern ν} {s : List Char} {u : List (ν × List Char)} (h : Renders p s u) :
      Renders (alt p q) s u
  | right {p q : Pattern ν} {s : List Char} {u : List (ν × List Char)} (h : Renders q s u) :
      Renders (alt p q) s u
  | absent {r : Rounds} {eager : Bool} {p : Pattern ν} (hr : r ≠ .atLeastOne) :
      Renders (repeated r eager p) [] []
  | once {r : Rounds} {eager : Bool} {p : Pattern ν} {s : List Char} {u : List (ν × List Char)}
      (h : Renders p s u) : Renders (repeated r eager p) s u
  | again {r : Rounds} {eager : Bool} {p : Pattern ν} {s t : List Char}
      {u v : List (ν × List Char)} (hr : r ≠ .atMostOne) (h : Renders p s u)
      (ht : Renders (repeated r eager p) t v) : Renders (repeated r eager p) (s ++ t) (u ++ v)
  | group {name : ν} {p : Pattern ν} {s : List Char} {u : List (ν × List Char)}
      (h : Renders p s u) : Renders (group name p) s ((name, s) :: u)

/-! ## Parts -/

variable {p q : Pattern ν} {w : List Char} {vs : List (ν × List Char)}

@[simp]
theorem renders_text_iff {cs : List Char} :
    Renders (ν := ν) (text cs) w vs ↔ w = cs ∧ vs = [] := by
  constructor
  · intro h
    cases h with
    | text cs => exact ⟨rfl, rfl⟩
  · intro h
    obtain ⟨rfl, rfl⟩ := h
    exact .text w

@[simp]
theorem renders_one_iff {set : CharSet} :
    Renders (ν := ν) (one set) w vs ↔ ∃ c, set.contains c ∧ w = [c] ∧ vs = [] := by
  constructor
  · intro h
    cases h with
    | one hc => exact ⟨_, hc, rfl, rfl⟩
  · intro h
    obtain ⟨c, hc, rfl, rfl⟩ := h
    exact .one hc

@[simp]
theorem renders_place_iff {anchor : Anchor} :
    Renders (ν := ν) (place anchor) w vs ↔ w = [] ∧ vs = [] := by
  constructor
  · intro h
    cases h with
    | place anchor => exact ⟨rfl, rfl⟩
  · intro h
    obtain ⟨rfl, rfl⟩ := h
    exact .place anchor

theorem renders_seq_iff :
    Renders (seq p q) w vs ↔
      ∃ s t u v, Renders p s u ∧ Renders q t v ∧ w = s ++ t ∧ vs = u ++ v := by
  constructor
  · intro h
    cases h with
    | seq hp hq => exact ⟨_, _, _, _, hp, hq, rfl, rfl⟩
  · intro h
    obtain ⟨s, t, u, v, hp, hq, rfl, rfl⟩ := h
    exact .seq hp hq

theorem renders_alt_iff : Renders (alt p q) w vs ↔ Renders p w vs ∨ Renders q w vs := by
  constructor
  · intro h
    cases h with
    | left h => exact .inl h
    | right h => exact .inr h
  · intro h
    rcases h with h | h
    · exact .left h
    · exact .right h

theorem renders_group_iff {name : ν} :
    Renders (group name p) w vs ↔ ∃ u, Renders p w u ∧ vs = (name, w) :: u := by
  constructor
  · intro h
    cases h with
    | group h => exact ⟨_, h, rfl⟩
  · intro h
    obtain ⟨u, h, rfl⟩ := h
    exact .group h

theorem renders_opt_iff {eager : Bool} :
    Renders (repeated .atMostOne eager p) w vs ↔ (w = [] ∧ vs = []) ∨ Renders p w vs := by
  constructor
  · intro h
    cases h with
    | absent _ => exact .inl ⟨rfl, rfl⟩
    | once h => exact .inr h
    | again hr _ _ => exact absurd rfl hr
  · intro h
    rcases h with ⟨rfl, rfl⟩ | h
    · exact .absent (by decide)
    · exact .once h

/-- Every run of characters of a set is written after the rounds of one of them. -/
theorem renders_run {set : CharSet} {r : Rounds} {eager : Bool} (hr : r ≠ .atMostOne)
    (hw : ∀ c ∈ w, set.contains c) (hne : r = .atLeastOne → w ≠ []) :
    Renders (ν := ν) (repeated r eager (one set)) w [] := by
  induction w with
  | nil => exact .absent fun h => hne h rfl
  | cons c w ih =>
    have hc : Renders (ν := ν) (one set) [c] [] := .one (hw c List.mem_cons_self)
    cases w with
    | nil => exact .once hc
    | cons d w =>
      exact .again hr hc (ih (fun x hx => hw x (List.mem_cons_of_mem c hx)) fun _ => by simp)

@[simp]
theorem renders_whole_iff : Renders p.whole w vs ↔ Renders p w vs := by
  simp only [whole, all, renders_seq_iff, renders_place_iff]
  constructor
  · intro h
    obtain ⟨_, _, _, _, ⟨rfl, rfl⟩, ⟨_, _, _, _, h, ⟨rfl, rfl⟩, rfl, rfl⟩, rfl, rfl⟩ := h
    simpa using h
  · intro h
    exact ⟨[], w, [], vs, ⟨rfl, rfl⟩, ⟨w, [], vs, [], h, ⟨rfl, rfl⟩, by simp, by simp⟩, rfl, rfl⟩

/-! ## Values -/

theorem values_eq_nil (hg : p.groups = []) (h : Renders p w vs) : vs = [] := by
  induction h with
  | text _ | one _ | place _ | absent _ => rfl
  | seq _ _ ihp ihq =>
    obtain ⟨hp, hq⟩ := List.append_eq_nil_iff.1 hg
    rw [ihp hp, ihq hq]; rfl
  | left _ ih => exact ih (List.append_eq_nil_iff.1 hg).1
  | right _ ih => exact ih (List.append_eq_nil_iff.1 hg).2
  | once _ ih => exact ih hg
  | again _ _ _ ih ih' => rw [ih hg, ih' hg]; rfl
  | group _ _ => cases hg

/-- Whether only what is read at most once captures. -/
def capturesOnce : Pattern ν → Bool
  | text _ | one _ | place _ => true
  | seq p q | alt p q => p.capturesOnce && q.capturesOnce
  | repeated .atMostOne _ p => p.capturesOnce
  | repeated _ _ p => p.groups.isEmpty
  | group _ p => p.capturesOnce

/-- Every group has at most one value, and the values stand in the order of the groups. -/
theorem names_sublist (hp : p.capturesOnce) (h : Renders p w vs) :
    (vs.map Prod.fst).Sublist p.groups := by
  induction h with
  | text _ | one _ | place _ | absent _ => exact List.nil_sublist _
  | seq _ _ ihp ihq =>
    simp only [capturesOnce, Bool.and_eq_true] at hp
    rw [List.map_append]
    exact (ihp hp.1).append (ihq hp.2)
  | left _ ih =>
    simp only [capturesOnce, Bool.and_eq_true] at hp
    exact (ih hp.1).trans (List.sublist_append_left _ _)
  | right _ ih =>
    simp only [capturesOnce, Bool.and_eq_true] at hp
    exact (ih hp.2).trans (List.sublist_append_right _ _)
  | @once r _ p _ _ h ih =>
    cases r with
    | atMostOne => exact ih hp
    | anyNumber | atLeastOne =>
      simp only [capturesOnce, List.isEmpty_iff] at hp
      rw [values_eq_nil hp h]
      exact List.nil_sublist _
  | @again r _ p _ _ _ _ hr h ht _ _ =>
    have hg : p.groups = [] := by
      cases r with
      | atMostOne => exact absurd rfl hr
      | anyNumber | atLeastOne => simpa [capturesOnce] using hp
    rw [values_eq_nil (p := .repeated r _ p) hg (.again hr h ht)]
    exact List.nil_sublist _
  | group _ ih => exact (ih hp).cons_cons _

/-! ## Reading what is written -/

/-- The name and the characters of a capture. -/
def valueOf (c : Capture ν) : ν × List Char := (c.name, c.chars)

/-- What is read is written after the pattern, and the captures are its values. -/
theorem renders_of_reads {s t : Spot} {cs : List (Capture ν)} (h : p.Reads s t cs) :
    ∃ w vs, p.Renders w vs ∧ s.after = w ++ t.after ∧ t.before = s.before + w.length ∧
      vs.Perm (cs.map valueOf) := by
  induction h with
  | nothing => exact ⟨[], [], .text [], rfl, rfl, .refl _⟩
  | @char s t c cs rest hs _ ih =>
    obtain ⟨w, vs, hw, ha, hb, hp⟩ := ih
    obtain ⟨rfl, rfl⟩ := renders_text_iff.1 hw
    refine ⟨c :: w, [], .text _, by rw [hs, List.cons_append, ← ha]; rfl, ?_, .refl _⟩
    rw [hb]; simp only [Spot.past, List.length_cons]; omega
  | one hs hc => exact ⟨[_], [], .one hc, hs, rfl, .refl _⟩
  | place _ => exact ⟨[], [], .place _, rfl, rfl, .refl _⟩
  | seq _ _ ihp ihq =>
    obtain ⟨w, vs, hw, ha, hb, hp⟩ := ihp
    obtain ⟨w', vs', hw', ha', hb', hp'⟩ := ihq
    refine ⟨w ++ w', vs ++ vs', .seq hw hw', by rw [ha, ha', List.append_assoc], ?_, ?_⟩
    · rw [hb', hb, List.length_append]; omega
    · rw [List.map_append]
      exact (hp.append hp').trans List.perm_append_comm
  | left _ ih =>
    obtain ⟨w, vs, hw, h⟩ := ih
    exact ⟨w, vs, .left hw, h⟩
  | right _ ih =>
    obtain ⟨w, vs, hw, h⟩ := ih
    exact ⟨w, vs, .right hw, h⟩
  | stop hr => exact ⟨[], [], .absent hr, rfl, rfl, .refl _⟩
  | once _ ih =>
    obtain ⟨w, vs, hw, h⟩ := ih
    exact ⟨w, vs, .once hw, h⟩
  | again hr _ _ ihp ihq =>
    obtain ⟨w, vs, hw, ha, hb, hp⟩ := ihp
    obtain ⟨w', vs', hw', ha', hb', hp'⟩ := ihq
    refine ⟨w ++ w', vs ++ vs', .again hr hw hw', by rw [ha, ha', List.append_assoc], ?_, ?_⟩
    · rw [hb', hb, List.length_append]; omega
    · rw [List.map_append]
      exact (hp.append hp').trans List.perm_append_comm
  | @group name p s t cs _ ih =>
    obtain ⟨w, vs, hw, ha, hb, hp⟩ := ih
    refine ⟨w, (name, w) :: vs, .group hw, ha, hb, ?_⟩
    have hv : valueOf ⟨name, s.after, t.before - s.before⟩ = (name, w) := by
      simp [valueOf, Capture.chars, ha, hb]
    rw [List.map_cons, hv]
    exact hp.cons _

/-- Whether the pattern asks for no place. -/
def isPlaceless : Pattern ν → Bool
  | text _ | one _ => true
  | place _ => false
  | seq p q | alt p q => p.isPlaceless && q.isPlaceless
  | repeated _ _ p | group _ p => p.isPlaceless

theorem reads_text (cs : List Char) {s : Spot} {rest : List Char} (hs : s.after = cs ++ rest) :
    ∃ t, (text (ν := ν) cs).Reads s t [] ∧ t.after = rest := by
  induction cs generalizing s with
  | nil => exact ⟨s, .nothing, hs⟩
  | cons c cs ih =>
    obtain ⟨t, ht, ha⟩ := ih (s := s.past c (cs ++ rest)) rfl
    exact ⟨t, .char hs ht, ha⟩

/-- What is written after a pattern can be read wherever it stands. -/
theorem reads_of_renders (hp : p.isPlaceless) (h : p.Renders w vs) {s : Spot} {rest : List Char}
    (hs : s.after = w ++ rest) : ∃ t cs, p.Reads s t cs ∧ t.after = rest := by
  induction h generalizing s rest with
  | text cs =>
    obtain ⟨t, ht, ha⟩ := reads_text (ν := ν) cs hs
    exact ⟨t, [], ht, ha⟩
  | one hc => exact ⟨_, [], .one hs hc, rfl⟩
  | place _ => cases hp
  | seq _ _ ihp ihq =>
    simp only [isPlaceless, Bool.and_eq_true] at hp
    rw [List.append_assoc] at hs
    obtain ⟨t, u, ht, ha⟩ := ihp hp.1 hs
    obtain ⟨r, v, hr, hb⟩ := ihq hp.2 ha
    exact ⟨r, _, .seq ht hr, hb⟩
  | left _ ih =>
    simp only [isPlaceless, Bool.and_eq_true] at hp
    obtain ⟨t, u, ht, ha⟩ := ih hp.1 hs
    exact ⟨t, u, .left ht, ha⟩
  | right _ ih =>
    simp only [isPlaceless, Bool.and_eq_true] at hp
    obtain ⟨t, u, ht, ha⟩ := ih hp.2 hs
    exact ⟨t, u, .right ht, ha⟩
  | absent hr => exact ⟨s, [], .stop hr, hs⟩
  | once _ ih =>
    obtain ⟨t, u, ht, ha⟩ := ih hp hs
    exact ⟨t, u, .once ht, ha⟩
  | again hr _ _ ihp ihq =>
    rw [List.append_assoc] at hs
    obtain ⟨t, u, ht, ha⟩ := ihp hp hs
    obtain ⟨r, v, hr', hb⟩ := ihq hp ha
    exact ⟨r, _, .again hr ht hr', hb⟩
  | group _ ih =>
    obtain ⟨t, u, ht, ha⟩ := ih hp hs
    exact ⟨t, _, .group ht, ha⟩

/-! ## Finding what is written -/

/-- What is captured from a text are the values that it is written with. -/
theorem renders_of_captures? {text : List Char} {cs : List (Capture ν)}
    (h : p.whole.captures? text = some cs) :
    ∃ vs, p.Renders text vs ∧ vs.Perm (cs.map valueOf) := by
  obtain ⟨t, hr, ht⟩ := reads_of_captures?_whole h
  obtain ⟨w, vs, hw, ha, _, hp⟩ := renders_of_reads hr
  rw [ht, List.append_nil] at ha
  exact ⟨vs, (show text = w from ha) ▸ hw, hp⟩

/-- A text that is written after a pattern is found. -/
theorem isSome_captures?_of_renders (hp : p.isPlaceless) {text : List Char}
    (h : p.Renders text vs) : (p.whole.captures? text).isSome := by
  obtain ⟨t, cs, ht, ha⟩ := reads_of_renders hp h (s := .first text) (List.append_nil text).symm
  exact isSome_captures? (reads_whole_iff.2 ⟨ht, rfl, ha⟩)

end ErrorHints.Pattern
