import ErrorHints.Engine
import ErrorHints.Proofs.Grammar.Overlap

/-!
# Which texts a suffix shows

Between the candidates of the strategies and the suffix of a report lie four steps: candidates
that say what the message hints at are left out, texts that were shown before are left out, the
cap cuts off what is too much, and the rest is put into words. Candidates are left out before
the cap counts, so no suggestion is lost to one that is not shown.

Results:
* `Suffix.compose_eq_ite`: the words of a suffix, for every list of texts and every cap.
* `Engine.suffixOf_drop`: a candidate that is not shown makes no difference.
* `Engine.diagnose_shows`: what diagnosis appends, and that superfluous candidates take no place.
-/
namespace ErrorHints

/-! ## The words of a suffix -/

namespace Suffix

theorem shown_eq (texts : List String) (limit : Option Nat) :
    shown texts limit = limit.elim texts.eraseDups texts.eraseDups.take := by
  unfold shown
  cases limit <;> rw [distinct_eq_eraseDups] <;> rfl

theorem compose_eq_ite (texts : List String) (limit : Option Nat) :
    compose texts limit = if texts = [] ∨ limit = some 0 then "" else
      ". Did you mean " ++ ", ".intercalate (limit.elim texts.eraseDups texts.eraseDups.take) ++
        "?" := by
  split
  · exact (compose_eq_empty_iff texts limit).2 ‹_›
  · rw [← shown_eq]
    exact compose_eq ((compose_eq_empty_iff texts limit).not.2 ‹_›)

/-- A suffix depends on the first occurrences only. -/
theorem compose_congr {texts texts' : List String} (h : texts.eraseDups = texts'.eraseDups)
    (limit : Option Nat) : compose texts limit = compose texts' limit := by
  unfold compose
  rw [shown_eq, shown_eq, h]

end Suffix

/-! ## Candidates beyond the hint -/

namespace Engine

/-- A text that says what a hint says: the hint itself, perhaps with a remark behind it. -/
def Repeats (hint text : String) : Prop :=
  text = hint ∨ ∃ remark, text = hint ++ " (" ++ remark

theorem repeatsHint_iff (hint text : String) :
    repeatsHint hint text = true ↔ Repeats hint text := by
  rw [repeatsHint, Bool.or_eq_true, beq_iff_eq, List.isPrefixOf_iff_prefix, Repeats]
  refine or_congr Iff.rfl ⟨?_, ?_⟩
  · intro h
    obtain ⟨rest, hrest⟩ := h
    exact ⟨String.ofList rest, String.toList_inj.1 (by rw [← hrest]; simp)⟩
  · intro h
    obtain ⟨remark, rfl⟩ := h
    exact ⟨remark.toList, String.toList_append.symm⟩

instance (hint text : String) : Decidable (Repeats hint text) :=
  decidable_of_iff _ (repeatsHint_iff hint text)

variable {hint : Option String} {limit : Option Nat} {c : Candidate}
  {cs before after more : List Candidate}

/-- The candidates that say more than the hint, if there is one. -/
def beyond (hint : Option String) (cs : List Candidate) : List Candidate :=
  cs.filter fun c => ∀ h ∈ hint, ¬ Repeats h c.text

/-- The suffix that candidates make for a message with this hint. -/
def suffixOf (hint : Option String) (limit : Option Nat) (cs : List Candidate) : String :=
  Suffix.compose ((beyond hint cs).map Candidate.text) limit

theorem newCandidates_eq_beyond (e : Engine) (kind : Kind) (fields : Fields)
    (symbols : Environment) (host : Host) :
    e.newCandidates kind fields symbols host =
      beyond (fields.get? .hint) (e.suggest kind fields symbols host) := by
  refine List.filter_congr fun c _ => ?_
  rw [Bool.eq_iff_iff, decide_eq_true_iff]
  cases fields.get? .hint with
  | none => simp
  | some h => simp [← repeatsHint_iff]

theorem suffix_eq_suffixOf (e : Engine) (r : Report) (symbols : Environment) (host : Host) :
    let fields := e.grammar.classify r.kind r.message
    e.suffix r symbols host = suffixOf (fields.get? .hint) e.maxSuggestions
      (e.suggest r.kind fields symbols host) := by
  intro fields
  rw [suffixOf, ← newCandidates_eq_beyond]
  rfl

theorem beyond_append : beyond hint (before ++ after) = beyond hint before ++ beyond hint after :=
  List.filter_append ..

/-- A text that is dropped behind a hint is dropped wherever it stands. -/
theorem mem_texts_beyond (hc : ∀ h ∈ hint, ¬ Repeats h c.text)
    (h : c.text ∈ cs.map Candidate.text) : c.text ∈ (beyond hint cs).map Candidate.text := by
  obtain ⟨d, hd, htext⟩ := List.mem_map.1 h
  refine List.mem_map.2 ⟨d, List.mem_filter.2 ⟨hd, ?_⟩, htext⟩
  rw [htext]
  exact decide_eq_true hc

/-- A candidate that was proposed before or repeats the hint makes no difference. -/
theorem suffixOf_drop
    (h : c.text ∈ before.map Candidate.text ∨ ∃ h ∈ hint, Repeats h c.text) :
    suffixOf hint limit (before ++ c :: after) = suffixOf hint limit (before ++ after) := by
  unfold suffixOf
  by_cases hc : ∀ h ∈ hint, ¬ Repeats h c.text
  · have hknown : c.text ∈ before.map Candidate.text :=
      h.resolve_right fun ⟨h, hh, hr⟩ => hc h hh hr
    have hkept : beyond hint (c :: after) = c :: beyond hint after :=
      List.filter_cons_of_pos (decide_eq_true hc)
    refine Suffix.compose_congr ?_ limit
    rw [beyond_append, beyond_append, hkept, List.map_append, List.map_append, List.map_cons]
    exact eraseDups_append_cons (mem_texts_beyond hc hknown)
  · have hleft : beyond hint (c :: after) = beyond hint after :=
      List.filter_cons_of_neg (by simpa using hc)
    rw [beyond_append, beyond_append, hleft]

/-- Candidates whose texts were all proposed before make no difference. -/
theorem suffixOf_append (h : ∀ c ∈ more, c.text ∈ cs.map Candidate.text) :
    suffixOf hint limit (cs ++ more) = suffixOf hint limit cs := by
  refine Suffix.compose_congr ?_ limit
  rw [beyond_append, List.map_append]
  refine eraseDups_append_of_subset fun t ht => ?_
  obtain ⟨c, hc, rfl⟩ := List.mem_map.1 ht
  obtain ⟨hmore, hbeyond⟩ := List.mem_filter.1 hc
  exact mem_texts_beyond (of_decide_eq_true hbeyond) (h c hmore)

/-- Diagnosis appends to every text of a report that is not annotated one suffix, made of the
candidates of the strategies. It is empty if no candidate says more than the hint or the cap is
zero. Otherwise it shows the texts of the candidates that say more than the hint, each once, in
order of first occurrence and no more than the cap allows. A candidate whose text was proposed
before or repeats the hint takes no place, whatever the cap is; nor do any candidates at the end
whose texts were all proposed before. -/
theorem diagnose_shows (e : Engine) (r : Report) (symbols : Environment) (host : Host)
    (h : r.stage ≠ .annotated) :
    let fields := e.grammar.classify r.kind r.message
    let hint := fields.get? .hint
    (e.diagnose r symbols host).facets = r.facets.map
      (· ++ suffixOf hint e.maxSuggestions (e.suggest r.kind fields symbols host)) ∧
    ∀ (limit : Option Nat) (cs : List Candidate),
      let texts := (cs.filter fun c => ∀ h ∈ hint, ¬ Repeats h c.text).map Candidate.text
      (suffixOf hint limit cs = if texts = [] ∨ limit = some 0 then "" else
        ". Did you mean " ++ ", ".intercalate (limit.elim texts.eraseDups texts.eraseDups.take) ++
          "?") ∧
      (∀ before c after, cs = before ++ c :: after →
        c.text ∈ before.map Candidate.text ∨ (∃ h ∈ hint, Repeats h c.text) →
          suffixOf hint limit cs = suffixOf hint limit (before ++ after)) ∧
      ∀ more : List Candidate, (∀ c ∈ more, c.text ∈ cs.map Candidate.text) →
        suffixOf hint limit (cs ++ more) = suffixOf hint limit cs := by
  intro fields hint
  refine ⟨?_, fun limit cs => ⟨Suffix.compose_eq_ite _ limit, ?_, fun more => suffixOf_append⟩⟩
  · rw [e.facets_diagnose symbols host h, suffix_eq_suffixOf]
  · intro before c after hcs hc
    rw [hcs]
    exact suffixOf_drop hc

/-- A hint, a repeated text and a cap: of five texts, the second and the last are shown. -/
theorem diagnose_shows_capped :
    let found : List Candidate :=
      ["'print' (builtin)", "'sprint'", "'print'", "'sprint'", "'point'"].map (⟨·, "echo", none⟩)
    let echo : Strategy := ⟨"echo", [.nameNotDefined], fun _ => .finished found⟩
    let e : Engine := { registry := .ofStrategies [echo], maxSuggestions := some 2 }
    let r := Report.new .nameNotDefined "name 'prnt' is not defined. Did you mean: 'print'?"
    let host := Host.ofVariables ⟨⟨.empty, []⟩⟩ []
    (e.diagnose r .empty host).facets =
      ["name 'prnt' is not defined. Did you mean: 'print'?. Did you mean 'sprint', 'point'?"] ∧
    suffixOf (some "'print'") (some 2) found = suffixOf (some "'print'") (some 2) (found.drop 1) ∧
    suffixOf (some "'print'") (some 2) (found ++ found) =
      suffixOf (some "'print'") (some 2) found := by
  intro found echo e r host
  have hfields : e.grammar.classify r.kind r.message =
      ⟨some "name.not_defined", [(.name, "prnt"), (.hint, "'print'")]⟩ := by
    have hgrammar : e.grammar = .standard := by dsimp only [e]
    rw [hgrammar, Grammar.classify_standard]
    decide +kernel
  have hsuggest : e.suggest r.kind (e.grammar.classify r.kind r.message) .empty host = found :=
    (suggest_eq [echo] e r.kind _ .empty host rfl).trans rfl
  obtain ⟨hfacets, hall⟩ := diagnose_shows e r .empty host (by decide)
  rw [hsuggest, hfields] at hfacets
  rw [hfields] at hall
  obtain ⟨hwords, hdrop, hmore⟩ := hall (some 2) found
  have hsuffix : suffixOf (some "'print'") (some 2) found = ". Did you mean 'sprint', 'point'?" :=
    hwords.trans (by decide +kernel)
  refine ⟨?_, hdrop [] _ (found.drop 1) rfl (.inr ⟨_, rfl, .inr ⟨"builtin)", rfl⟩⟩), ?_⟩
  · rw [hfacets]
    exact congrArg (fun s => [r.message ++ s]) hsuffix
  · exact hmore found fun c hc => List.mem_map_of_mem hc

end Engine

end ErrorHints
