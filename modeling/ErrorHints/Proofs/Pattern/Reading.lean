import ErrorHints.Pattern.Finds

/-!
# What a pattern reads

`p.Reads s t cs` says that `p` can read the characters between the spots `s` and `t`
and captures `cs` on the way, the latest first. It follows the pattern and knows
nothing of preference: of several ways to read a text any will do.

Results:
* `reads_atLeastOne_iff`: one round or more are one round and then any number of them.
* `reads_whole_iff`: a whole text is read from its first spot to its last.
-/
namespace ErrorHints

namespace Spot

/-- A spot of the given text. -/
def In (text : List Char) (s : Spot) : Prop :=
  ∃ front, text = front ++ s.after ∧ s.before = front.length ∧ s.last = front.getLast?

theorem first_in (text : List Char) : (first text).In text := ⟨[], rfl, rfl, rfl⟩

theorem In.past {text : List Char} {s : Spot} (h : s.In text) {c : Char} {rest : List Char}
    (hs : s.after = c :: rest) : (s.past c rest).In text := by
  obtain ⟨front, ht, hb, _⟩ := h
  refine ⟨front ++ [c], ?_, ?_, ?_⟩
  · rw [ht, hs]; simp [Spot.past]
  · simp [Spot.past, hb]
  · simp [Spot.past]

/-- Only the first spot has nothing before it. -/
theorem In.eq_first {text : List Char} {s : Spot} (h : s.In text) (hb : s.before = 0) :
    s = first text := by
  obtain ⟨front, ht, hf, hl⟩ := h
  rw [hb] at hf
  obtain rfl := List.eq_nil_of_length_eq_zero hf.symm
  obtain ⟨before, last, after⟩ := s
  simp only at hb hl ht
  rw [first, hb, hl, ht]
  rfl

end Spot

namespace Pattern

variable {ν : Type}

/-- The pattern reads from one spot to the other and captures the given parts, the latest first. -/
inductive Reads : Pattern ν → Spot → Spot → List (Capture ν) → Prop
  | nothing {s : Spot} : Reads (text []) s s []
  | char {s t : Spot} {c : Char} {cs rest : List Char} (hs : s.after = c :: rest)
      (h : Reads (text cs) (s.past c rest) t []) : Reads (text (c :: cs)) s t []
  | one {s : Spot} {set : CharSet} {c : Char} {rest : List Char} (hs : s.after = c :: rest)
      (hc : set.contains c) : Reads (one set) s (s.past c rest) []
  | place {s : Spot} {anchor : Anchor} (h : anchor.holds s) : Reads (place anchor) s s []
  | seq {p q : Pattern ν} {s t r : Spot} {u v : List (Capture ν)} (hp : Reads p s t u)
      (hq : Reads q t r v) : Reads (seq p q) s r (v ++ u)
  | left {p q : Pattern ν} {s t : Spot} {u : List (Capture ν)} (h : Reads p s t u) :
      Reads (alt p q) s t u
  | right {p q : Pattern ν} {s t : Spot} {u : List (Capture ν)} (h : Reads q s t u) :
      Reads (alt p q) s t u
  | stop {r : Rounds} {eager : Bool} {p : Pattern ν} {s : Spot} (hr : r ≠ .atLeastOne) :
      Reads (repeated r eager p) s s []
  | once {r : Rounds} {eager : Bool} {p : Pattern ν} {s t : Spot} {u : List (Capture ν)}
      (h : Reads p s t u) : Reads (repeated r eager p) s t u
  | again {r : Rounds} {eager : Bool} {p : Pattern ν} {s t q : Spot} {u v : List (Capture ν)}
      (hr : r ≠ .atMostOne) (h : Reads p s t u) (ht : Reads (repeated r eager p) t q v) :
      Reads (repeated r eager p) s q (v ++ u)
  | group {name : ν} {p : Pattern ν} {s t : Spot} {u : List (Capture ν)} (h : Reads p s t u) :
      Reads (group name p) s t (⟨name, s.after, t.before - s.before⟩ :: u)

theorem reads_seq_iff {p q : Pattern ν} {s r : Spot} {w : List (Capture ν)} :
    Reads (seq p q) s r w ↔ ∃ t u v, Reads p s t u ∧ Reads q t r v ∧ w = v ++ u := by
  constructor
  · intro h
    cases h with
    | seq hp hq => exact ⟨_, _, _, hp, hq, rfl⟩
  · intro h
    obtain ⟨t, u, v, hp, hq, rfl⟩ := h
    exact .seq hp hq

theorem reads_place_iff {anchor : Anchor} {s t : Spot} {u : List (Capture ν)} :
    Reads (place anchor) s t u ↔ anchor.holds s ∧ t = s ∧ u = [] := by
  constructor
  · intro h
    cases h with
    | place h => exact ⟨h, rfl, rfl⟩
  · intro h
    obtain ⟨h, rfl, rfl⟩ := h
    exact .place h

/-! ## Rounds -/

variable {p : Pattern ν} {eager : Bool} {s r : Spot} {w : List (Capture ν)}

theorem reads_atMostOne_iff :
    Reads (repeated .atMostOne eager p) s r w ↔ (r = s ∧ w = []) ∨ Reads p s r w := by
  constructor
  · intro h
    cases h with
    | stop _ => exact .inl ⟨rfl, rfl⟩
    | once h => exact .inr h
    | again hr _ _ => exact absurd rfl hr
  · intro h
    rcases h with ⟨rfl, rfl⟩ | h
    · exact .stop (by decide)
    · exact .once h

theorem reads_anyNumber_iff :
    Reads (repeated .anyNumber eager p) s r w ↔ (r = s ∧ w = []) ∨
      ∃ t u v, Reads p s t u ∧ Reads (repeated .anyNumber eager p) t r v ∧ w = v ++ u := by
  constructor
  · intro h
    cases h with
    | stop _ => exact .inl ⟨rfl, rfl⟩
    | once h => exact .inr ⟨r, w, [], h, .stop (by decide), rfl⟩
    | again _ h ht => exact .inr ⟨_, _, _, h, ht, rfl⟩
  · intro h
    rcases h with ⟨rfl, rfl⟩ | ⟨t, u, v, h, ht, rfl⟩
    · exact .stop (by decide)
    · exact .again (by decide) h ht

theorem Reads.anyNumber (h : Reads (repeated .atLeastOne eager p) s r w) :
    Reads (repeated .anyNumber eager p) s r w := by
  generalize hq : repeated .atLeastOne eager p = q at h
  induction h with
  | once h _ => cases hq; exact .once h
  | again _ h _ _ ih => cases hq; exact .again (by decide) h (ih rfl)
  | stop hr => cases hq; exact absurd rfl hr
  | _ => cases hq

/-- One round, and then any number of them. -/
theorem reads_atLeastOne_iff :
    Reads (repeated .atLeastOne eager p) s r w ↔
      ∃ t u v, Reads p s t u ∧ Reads (repeated .anyNumber eager p) t r v ∧ w = v ++ u := by
  constructor
  · intro h
    cases h with
    | stop hr => exact absurd rfl hr
    | once h => exact ⟨r, w, [], h, .stop (by decide), rfl⟩
    | again _ h ht => exact ⟨_, _, _, h, ht.anyNumber, rfl⟩
  · intro h
    obtain ⟨t, u, v, h, ht, rfl⟩ := h
    generalize hq : repeated .anyNumber eager p = q at ht
    induction ht generalizing s u with
    | stop _ => exact .once h
    | once h' _ => cases hq; exact .again (by decide) h (.once h')
    | again _ h' _ _ ih =>
      cases hq
      exact .again (by decide) h (ih _ h' rfl)
    | _ => cases hq

/-! ## Whole texts -/

/-- A pattern for a whole text reads it from the start to the end. -/
theorem reads_whole_iff : Reads p.whole s r w ↔ Reads p s r w ∧ s.before = 0 ∧ r.after = [] := by
  simp only [whole, all, reads_seq_iff, reads_place_iff, Anchor.holds, decide_eq_true_eq,
    List.isEmpty_iff]
  constructor
  · intro h
    obtain ⟨_, _, _, ⟨hs, rfl, rfl⟩, ⟨_, v, _, hp, ⟨ht, rfl, rfl⟩, rfl⟩, rfl⟩ := h
    simpa using ⟨hp, hs, ht⟩
  · intro h
    obtain ⟨hp, hs, ht⟩ := h
    exact ⟨s, [], w, ⟨hs, rfl, rfl⟩, ⟨r, w, [], hp, ⟨ht, rfl, rfl⟩, rfl⟩, (List.append_nil w).symm⟩

end Pattern

end ErrorHints
