import ErrorHints.Candidate
import ErrorHints.Proofs.Grammar.Overlap

/-!
# Messages that have received a suffix

A suffix `. Did you mean a, b?` may hold any text, and a message that has received one may be
captured and read again. Hardly any phrasing accepts it: the hints of the runtime are worded
otherwise, but in two phrasings. These two read the suffix as a hint if they had read the message
before it without one or, where the hint is free, with one.

Results:
* `eq_of_captures?_suffixed`: a message with a suffix is read by its own phrasing or by none, and
  only by two.
* `Pattern.renders_opt_append`: what an optional part at the end makes of a longer text.
* `captures?_keywordOfCall_suffixed`, `captures?_missingParentheses_suffixed`: how the two read it.
-/
namespace ErrorHints

/-! ## Texts that go on -/

namespace Pattern

variable {ν : Type} {p q r : Pattern ν} {w x : List Char} {vs vs' : List (ν × List Char)}

theorem renders_seq_assoc :
    (seq (seq p q) r).Renders w vs ↔ (seq p (seq q r)).Renders w vs := by
  simp only [renders_seq_iff]
  constructor
  · intro h
    obtain ⟨_, t, _, v, ⟨s, s', u, u', hp, hq, rfl, rfl⟩, hr, rfl, rfl⟩ := h
    exact ⟨s, s' ++ t, u, u' ++ v, hp, ⟨s', t, u', v, hq, hr, rfl, rfl⟩, by simp, by simp⟩
  · intro h
    obtain ⟨s, _, u, _, hp, ⟨s', t, u', v, hq, hr, rfl, rfl⟩, rfl, rfl⟩ := h
    exact ⟨s ++ s', t, u ++ u', v, ⟨s, s', u, u', hp, hq, rfl, rfl⟩, hr, by simp, by simp⟩

/-- The last part of a list, set apart. -/
theorem renders_all_concat (p : Pattern ν) (ps : List (Pattern ν)) (q : Pattern ν) :
    (all (p :: ps ++ [q])).Renders w vs ↔ (seq (all (p :: ps)) q).Renders w vs := by
  induction ps generalizing p w vs with
  | nil => rfl
  | cons p' ps ih =>
    have hcons : (all (p :: p' :: ps ++ [q])).Renders w vs ↔
        (seq p (all (p' :: ps ++ [q]))).Renders w vs := Iff.rfl
    have hcons' : (seq (all (p :: p' :: ps)) q).Renders w vs ↔
        (seq (seq p (all (p' :: ps))) q).Renders w vs := Iff.rfl
    rw [hcons, hcons', renders_seq_assoc, renders_seq_iff, renders_seq_iff]
    simp only [ih]

/-- If a text and a longer one are written after a pattern with an optional part at the end, the
longer one has that part. -/
theorem renders_opt_append (hp : p.isPrefixFree) (hd : p.isDetermined) (hx : x ≠ [])
    (h : (seq p (opt q)).Renders w vs) (h' : (seq p (opt q)).Renders (w ++ x) vs') :
    ∃ s t u v v', p.Renders s u ∧ (opt q).Renders t v ∧ q.Renders (t ++ x) v' ∧
      vs = u ++ v ∧ vs' = u ++ v' := by
  obtain ⟨s, t, u, v, hs, ht, rfl, rfl⟩ := renders_seq_iff.1 h
  obtain ⟨s', t', u', v', hs', ht', he, rfl⟩ := renders_seq_iff.1 h'
  rw [List.append_assoc] at he
  obtain rfl := hs.eq_of_isPrefixFree hp hs' he
  obtain rfl := hs.values_eq hd hs'
  obtain rfl := List.append_cancel_left he
  rcases renders_opt_iff.1 ht' with ⟨hnil, -⟩ | hq
  · exact absurd (List.append_eq_nil_iff.1 hnil).2 hx
  · exact ⟨s, t, u, v, v', hs, ht, hq, rfl, rfl⟩

/-- If no word of the optional part begins another one, the shorter text does not have it. -/
theorem renders_opt_append_of_isPrefixFree (hp : p.isPrefixFree) (hd : p.isDetermined)
    (hq : q.isPrefixFree) (hx : x ≠ []) (h : (seq p (opt q)).Renders w vs)
    (h' : (seq p (opt q)).Renders (w ++ x) vs') :
    ∃ s v', p.Renders s vs ∧ q.Renders x v' ∧ vs' = vs ++ v' := by
  obtain ⟨s, t, u, v, v', hs, ht, hq', rfl, rfl⟩ := renders_opt_append hp hd hx h h'
  rcases renders_opt_iff.1 ht with ⟨rfl, rfl⟩ | ht
  · exact ⟨s, v', by rwa [List.append_nil], hq', by rw [List.append_nil]⟩
  · have he : t ++ x = (t ++ x) ++ [] := (List.append_nil _).symm
    have hself : t = t ++ x := ht.eq_of_isPrefixFree hq hq' he
    exact absurd (List.append_right_eq_self.1 hself.symm) hx

/-- The texts of a pattern, each followed by a suffix that shows some text. -/
def suffixed (p : Pattern ν) : Pattern ν :=
  seq p (all [ofString ". Did you mean ", star (one (.except [])), ofString "?"])

theorem renders_suffixed (h : p.Renders w vs) (shown : String) :
    ∃ us, p.suffixed.Renders (w ++ (". Did you mean " ++ shown ++ "?").toList) us := by
  have hshown : (star (one (.except []))).Renders (ν := ν) shown.toList [] :=
    renders_run (by decide) (fun c _ => by simp [CharSet.contains_except]) nofun
  rw [String.toList_append, String.toList_append, List.append_assoc]
  exact ⟨_, .seq h (.seq (.text _) (.seq hshown (.text _)))⟩

end Pattern

namespace Grammar

open Pattern

/-! ## The standard phrasings -/

/-- A suffix can be read as a part of a message of the same phrasing only, and only of two. -/
theorem apart_suffixed : ∀ p ∈ standardPhrasings, ∀ q ∈ standardPhrasings, p.kind = q.kind →
    p.pattern.suffixed.apart q.pattern ∨
      p.id = q.id ∧ (p.id = keywordOfCall.id ∨ p.id = missingParentheses.id) := by
  decide +kernel

theorem keywordOfCall_mem : keywordOfCall ∈ standardPhrasings := by
  simp [standardPhrasings, unexpectedKeyword]

theorem missingParentheses_mem : missingParentheses ∈ standardPhrasings := by
  simp [standardPhrasings, syntaxProblem]

variable {m shown : String} {f f' : Fields}

/-- A message that has received a suffix is read by its own phrasing or by none, and only by
two of them. -/
theorem eq_of_captures?_suffixed {p q : Phrasing} (hp : p ∈ standardPhrasings)
    (hq : q ∈ standardPhrasings) (hk : p.kind = q.kind) (h : p.captures? m = some f)
    (h' : q.captures? (m ++ (". Did you mean " ++ shown ++ "?")) = some f') :
    p = q ∧ (p = keywordOfCall ∨ p = missingParentheses) := by
  obtain ⟨us, hus, -⟩ := (Phrasing.captures?_eq_some_iff (isExact_standard hp)).1 h
  obtain ⟨vs, hvs, -⟩ := (Phrasing.captures?_eq_some_iff (isExact_standard hq)).1 h'
  rw [String.toList_append] at hvs
  rcases apart_suffixed p hp q hq hk with h | ⟨hid, h⟩
  · obtain ⟨us', hus'⟩ := renders_suffixed hus shown
    exact absurd hvs (not_renders_of_apart h hus')
  · refine ⟨eq_of_id_eq hp hq hid, h.imp ?_ ?_⟩
    · exact eq_of_id_eq hp keywordOfCall_mem
    · exact eq_of_id_eq hp missingParentheses_mem

/-! ## The two that read a suffix -/

section

variable {w : List Char} {vs vs' : List (FieldName × List Char)}

theorem get?_fieldsOf_append (p : Phrasing) (n : FieldName) :
    (p.fieldsOf (vs ++ vs')).get? n =
      (Slots.get? n (textsOf vs)).or (Slots.get? n (textsOf vs')) := by
  rw [← Slots.get?_append, textsOf, textsOf, ← List.map_append]
  rfl

/-- An unknown keyword, before the hint. -/
def unhintedKeyword : Pattern FieldName :=
  .all [.group .func callee, say "() got an unexpected keyword argument '", name .arg, say "'"]

theorem renders_keywordOfCall_iff : keywordOfCall.pattern.Renders w vs ↔
    (Pattern.seq unhintedKeyword (hint (say ". Did you mean ") identifier)).Renders w vs := by
  rw [keywordOfCall, phrasing, renders_whole_iff]
  exact renders_all_concat _ [_, _, _] _

/-- A call without parentheses, before the hint. -/
def unhintedCall : Pattern FieldName :=
  .all [say "Missing parentheses in call to '", name .func, say "'"]

theorem renders_missingParentheses_iff : missingParentheses.pattern.Renders w vs ↔
    (Pattern.seq unhintedCall (.opt (.all [say ". Did you mean ",
      .group .hint (.plus (.one .anyInLine)), say "?"]))).Renders w vs := by
  rw [missingParentheses, phrasing, renders_whole_iff]
  exact renders_all_concat _ [_, _] _

/-- A hint is its lead, a quoted text and a question mark, and captured with its quotes. -/
theorem renders_hint {lead : String} {text : Pattern FieldName}
    (ht : text.groups = [])
    (hw : (Pattern.all [say lead, .group .hint (.all [say "'", text, say "'"]),
      say "?"]).Renders w vs) :
    ∃ h, (∃ u, text.Renders h u) ∧ vs = [(.hint, "'".toList ++ (h ++ "'".toList))] ∧
      w = lead.toList ++ ("'".toList ++ (h ++ "'".toList) ++ "?".toList) := by
  simp only [Pattern.all, say, ofString, renders_seq_iff, renders_group_iff, renders_text_iff] at hw
  obtain ⟨_, _, _, _, ⟨rfl, rfl⟩, ⟨_, _, _, _, ⟨_, ⟨_, _, _, _, ⟨rfl, rfl⟩,
    ⟨h, _, u, _, hh, ⟨rfl, rfl⟩, rfl, rfl⟩, rfl, rfl⟩, rfl⟩, ⟨rfl, rfl⟩, rfl, rfl⟩, rfl, rfl⟩ := hw
  refine ⟨h, ⟨u, hh⟩, ?_, rfl⟩
  rw [values_eq_nil ht hh]
  rfl

end

/-- The suffix is read as the hint, which the message does not have without it. -/
theorem captures?_keywordOfCall_suffixed (h : keywordOfCall.captures? m = some f)
    (h' : keywordOfCall.captures? (m ++ (". Did you mean " ++ shown ++ "?")) = some f') :
    (∃ name : String, shown = quoted name ∧ IsWord name.toList) ∧
      f.get? .hint = none ∧ f'.get? .hint = some shown ∧
      ∀ n, n ≠ .hint → f'.get? n = f.get? n := by
  have hexact := isExact_standard keywordOfCall_mem
  obtain ⟨vs, hvs, rfl⟩ := (Phrasing.captures?_eq_some_iff hexact).1 h
  obtain ⟨vs', hvs', rfl⟩ := (Phrasing.captures?_eq_some_iff hexact).1 h'
  rw [String.toList_append] at hvs'
  obtain ⟨s, v', hs, hx, rfl⟩ := renders_opt_append_of_isPrefixFree (by decide)
    (by decide) (by decide) (by simp) (renders_keywordOfCall_iff.1 hvs)
    (renders_keywordOfCall_iff.1 hvs')
  obtain ⟨name, ⟨u, hname⟩, rfl, hshown⟩ := renders_hint rfl hx
  have hword : IsWord name := ⟨hname.ne_nil rfl, hname.mem_run rfl⟩
  have htext : shown = quoted (String.ofList name) := by
    rw [String.toList_append, String.toList_append, List.append_assoc] at hshown
    rw [← String.toList_inj, List.append_cancel_right (List.append_cancel_left hshown)]
    simp [quoted]
  have hnone : Slots.get? .hint (textsOf vs) = none := by
    have hkeys : (textsOf vs).keys.Sublist [.func, .arg] :=
      keys_textsOf vs ▸ names_sublist (by decide) hs
    rw [← Option.not_isSome_iff_eq_none, Slots.get?_isSome_iff]
    exact fun hmem => absurd (hkeys.mem hmem) (by decide)
  refine ⟨⟨String.ofList name, htext, by rwa [String.toList_ofList]⟩, hnone, ?_, ?_⟩
  · rw [get?_fieldsOf_append, hnone, htext, quoted, String.append_assoc]
    simp [textsOf, Slots.get?]
  · intro n hn
    rw [get?_fieldsOf_append]
    simp [textsOf, Slots.get?, Ne.symm hn, Phrasing.fieldsOf, Fields.get?]

/-- The suffix is read as a part of the hint, whether the message has one without it or not. -/
theorem captures?_missingParentheses_suffixed (h : missingParentheses.captures? m = some f)
    (h' : missingParentheses.captures? (m ++ (". Did you mean " ++ shown ++ "?")) = some f') :
    (f'.get? .hint).isSome ∧ f'.entry = some missingParentheses.id := by
  refine ⟨?_, Phrasing.entry_captures? h'⟩
  have hexact := isExact_standard missingParentheses_mem
  obtain ⟨vs, hvs, rfl⟩ := (Phrasing.captures?_eq_some_iff hexact).1 h
  obtain ⟨vs', hvs', rfl⟩ := (Phrasing.captures?_eq_some_iff hexact).1 h'
  rw [String.toList_append] at hvs'
  obtain ⟨_, _, u, v, v', _, _, hx, rfl, rfl⟩ := renders_opt_append (by decide)
    (by decide) (by simp) (renders_missingParentheses_iff.1 hvs)
    (renders_missingParentheses_iff.1 hvs')
  simp only [Pattern.all, say, ofString, renders_seq_iff, renders_group_iff, renders_text_iff] at hx
  obtain ⟨_, _, _, _, ⟨rfl, rfl⟩, ⟨_, _, _, _, ⟨_, _, rfl⟩, ⟨rfl, rfl⟩, _, rfl⟩, _, rfl⟩ := hx
  rw [get?_fieldsOf_append]
  simp [textsOf, Slots.get?]

end Grammar

end ErrorHints
