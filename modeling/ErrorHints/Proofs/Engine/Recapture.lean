import ErrorHints.Proofs.Diagnosis
import ErrorHints.Proofs.Engine.Unclassified
import ErrorHints.Proofs.Grammar.Suffixed

/-!
# Messages that are captured again

A message that has received its suffix may be captured again, as the message of a fresh report.
It does not receive a second suffix then: either it is not understood any more, or the suffix is
read as a hint, and what it shows is left out because the message hints at it already. The two
kinds of failure whose suggestions do not depend on the message are left out of account.

Results:
* `suffix_eq_empty_or`: a message receives a suffix only if some phrasing accepts it.
* `suffix_of_suffixed`: a message that has received a suffix receives no other.
* `message_diagnose_again`: diagnosis changes no message that it has given back.
-/
namespace ErrorHints

/-- Texts that are shown without a space are one text. -/
theorem eq_singleton_of_intercalate {ts : List String} {t : String} (hne : ts ≠ [])
    (h : ", ".intercalate ts = t) (ht : ' ' ∉ t.toList) : ts = [t] := by
  match ts with
  | [] => exact absurd rfl hne
  | [s] => rw [← h, String.intercalate_singleton]
  | s :: s' :: ts =>
    refine absurd ?_ ht
    rw [← h, String.intercalate_cons_of_ne_nil (List.cons_ne_nil s' ts)]
    simp

theorem Grammar.space_notMem_quoted {name : String} (h : Grammar.IsWord name.toList) :
    ' ' ∉ (quoted name).toList := by
  have hname : ' ' ∉ name.toList := fun hmem =>
    Bool.false_ne_true (Grammar.not_contains_word_space.symm.trans (h.2 _ hmem))
  simpa [quoted] using hname

namespace Strategy

/-- A misspelled keyword is looked up by its name and by the callee. -/
theorem candidates_unexpectedKeyword_congr {cx cx' : Context} (hs : cx.symbols = cx'.symbols)
    (hf : ∀ n, n ≠ .hint → cx.fields.get? n = cx'.fields.get? n) :
    (unexpectedKeyword.generate cx).candidates = (unexpectedKeyword.generate cx').candidates := by
  have harg : cx.field .arg = cx'.field .arg := by
    simp only [Context.field, hf .arg (by decide)]
  have hparameters : cx.calleeParameters? = cx'.calleeParameters? := by
    simp only [Context.calleeParameters?, Context.parametersOf?, hs, hf .func (by decide)]
  simp only [unexpectedKeyword, candidates_of, harg, hparameters]

/-- The runtime's own hint makes a suggestion superfluous. -/
theorem candidates_outdatedPrint_of_hint {cx : Context} (h : (cx.fields.get? .hint).isSome) :
    (outdatedPrint.generate cx).candidates = [] := by
  rw [outdatedPrint, candidates_of]
  simp only [h, if_true, Context.field]
  cases cx.fields.get? .func with
  | none => rfl
  | some func => rfl

theorem hasEntry_of_entry {cx : Context} {id : String} {entries : List String}
    (h : cx.fields.entry = some id) (hid : entries.contains id = false) :
    hasEntry cx entries = false := by
  rw [hasEntry, h, Option.any_some, hid]

end Strategy

namespace Engine

variable {k : Kind} {m : String} {f f' : Fields} {symbols : Environment} {host : Host}

/-- A message receives a suffix only if some phrasing of its kind accepts it. -/
theorem suffix_eq_empty_or (hm : k ≠ .outOfMemory) (ho : k ≠ .overflow) :
    standard.suffix (.new k m) symbols host = "" ∨
      ∃ p ∈ Grammar.standardPhrasings, p.kind = k ∧
        p.captures? m = some (standard.grammar.classify k m) := by
  have hread := Grammar.classify_standard_eq_empty_or k m
  rw [← grammar_standard] at hread
  rcases hread with hempty | hread
  · have hcostly : ¬ Strategy.CallsCostly standard.knowledge k symbols := by
      intro h
      have hkind := Strategy.mem_kinds_of_callsCostly h
      simp [Strategy.footprintAlternative, Strategy.of, hm, ho] at hkind
    have hnone := (suggest_empty_eq_nil_iff standard k symbols host rfl).2 hcostly
    exact .inl ((suffix_eq_empty_iff standard (.new k m) symbols host hempty).2 (.inl hnone))
  · exact .inr hread

theorem strategiesFor_standard : standard.registry.strategiesFor k =
    standardStrategies.flatMap fun s => List.replicate (s.kinds.count k) s :=
  Registry.strategiesFor_ofStrategies standardStrategies k

theorem suggest_unexpectedKeyword : standard.suggest .unexpectedKeyword f symbols host =
    (Strategy.unexpectedKeyword.generate
      (standard.context .unexpectedKeyword f symbols host)).candidates := by
  have hfor : standard.registry.strategiesFor .unexpectedKeyword = [Strategy.unexpectedKeyword] :=
    strategiesFor_standard.trans rfl
  rw [suggest, hfor, List.flatMap_singleton]

theorem strategiesFor_syntaxProblem : standard.registry.strategiesFor .syntaxProblem =
    [Strategy.outdatedPrint, Strategy.outdatedComparison, Strategy.octalLiteral] :=
  strategiesFor_standard.trans rfl

/-- Nothing is suggested for a call without parentheses if the message has a hint. -/
theorem suggest_missingParentheses (hhint : (f.get? .hint).isSome)
    (hentry : f.entry = some Grammar.missingParentheses.id) :
    standard.suggest .syntaxProblem f symbols host = [] := by
  rw [suggest, strategiesFor_syntaxProblem]
  generalize hcx : standard.context .syntaxProblem f symbols host = cx
  have hfields : cx.fields = f := by rw [← hcx]; rfl
  have hprint : (Strategy.outdatedPrint.generate cx).candidates = [] :=
    Strategy.candidates_outdatedPrint_of_hint (hfields ▸ hhint)
  have hcomparison : (Strategy.outdatedComparison.generate cx).candidates = [] :=
    Strategy.candidates_outdatedComparison (Strategy.hasEntry_of_entry (hfields ▸ hentry) rfl)
  have hoctal : (Strategy.octalLiteral.generate cx).candidates = [] :=
    Strategy.candidates_octalLiteral (Strategy.hasEntry_of_entry (hfields ▸ hentry) rfl)
  simp [hprint, hcomparison, hoctal]

/-- What the suffix of a message is composed of. -/
def textsFor (k : Kind) (m : String) (symbols : Environment) (host : Host) : List String :=
  (standard.newCandidates k (standard.grammar.classify k m) symbols host).map Candidate.text

theorem suffix_eq_compose :
    standard.suffix (.new k m) symbols host = Suffix.compose (textsFor k m symbols host) none :=
  rfl

theorem suffix_of_newCandidates
    (h : standard.newCandidates k (standard.grammar.classify k m) symbols host = []) :
    standard.suffix (.new k m) symbols host = "" := by
  rw [suffix_eq_compose, textsFor, h]
  exact Suffix.compose_nil none

/-- What the suffix of a message would show, in one text. -/
def shownFor (k : Kind) (m : String) (symbols : Environment) (host : Host) : String :=
  ", ".intercalate (Suffix.shown (textsFor k m symbols host) none)

theorem suffix_eq_shownFor (hs : standard.suffix (.new k m) symbols host ≠ "") :
    standard.suffix (.new k m) symbols host =
      ". Did you mean " ++ shownFor k m symbols host ++ "?" :=
  Suffix.compose_eq hs

/-- What a suffix shows that can be read as one name is all that is suggested. -/
theorem text_eq_shownFor (hnone : (standard.grammar.classify k m).get? .hint = none)
    (hs : standard.suffix (.new k m) symbols host ≠ "")
    (hspace : ' ' ∉ (shownFor k m symbols host).toList) :
    ∀ c ∈ standard.suggest k (standard.grammar.classify k m) symbols host,
      c.text = shownFor k m symbols host := by
  have hne : Suffix.shown (textsFor k m symbols host) none ≠ [] := by
    intro hnil
    rw [suffix_eq_compose] at hs
    exact hs ((Suffix.compose_eq_empty_iff _ _).2 ((Suffix.shown_eq_nil_iff _ _).1 hnil))
  have hone : Suffix.shown (textsFor k m symbols host) none = [shownFor k m symbols host] :=
    eq_singleton_of_intercalate hne rfl hspace
  have hall : standard.newCandidates k (standard.grammar.classify k m) symbols host =
      standard.suggest k (standard.grammar.classify k m) symbols host := by
    simp [newCandidates, hnone]
  intro c hc
  rw [← hall] at hc
  have hmem : c.text ∈ Suffix.shown (textsFor k m symbols host) none :=
    (mem_distinct _ _).2 (List.mem_map_of_mem hc)
  exact List.mem_singleton.1 (hone ▸ hmem)

/-- The suffix of an unknown keyword, read as a hint, leaves nothing to suggest. -/
theorem newCandidates_hinted {shown : String}
    (htext : ∀ c ∈ standard.suggest .unexpectedKeyword f symbols host, c.text = shown)
    (hhint : f'.get? .hint = some shown) (hsame : ∀ n, n ≠ .hint → f'.get? n = f.get? n) :
    standard.newCandidates .unexpectedKeyword f' symbols host = [] := by
  have hsuggest : standard.suggest .unexpectedKeyword f' symbols host =
      standard.suggest .unexpectedKeyword f symbols host := by
    rw [suggest_unexpectedKeyword, suggest_unexpectedKeyword]
    exact Strategy.candidates_unexpectedKeyword_congr rfl hsame
  rw [newCandidates, hsuggest, List.filter_eq_nil_iff]
  intro c hc
  simp [hhint, htext c hc, repeatsHint]

/-- A message that has received a suffix receives no other. -/
theorem suffix_of_suffixed (hm : k ≠ .outOfMemory) (ho : k ≠ .overflow)
    (hs : standard.suffix (.new k m) symbols host ≠ "") :
    standard.suffix (.new k (m ++ standard.suffix (.new k m) symbols host)) symbols host = "" := by
  rw [suffix_eq_shownFor hs]
  rcases suffix_eq_empty_or hm ho with hnone | ⟨q, hq, hqk, hf'⟩
  · exact hnone
  obtain ⟨p, hp, hpk, hf⟩ := (suffix_eq_empty_or hm ho).resolve_left hs
  obtain ⟨rfl, rfl | rfl⟩ :=
    Grammar.eq_of_captures?_suffixed hp hq (hpk.trans hqk.symm) hf hf'
  · obtain ⟨⟨name, hname, hword⟩, hnone, hhint, hsame⟩ :=
      Grammar.captures?_keywordOfCall_suffixed hf hf'
    have hspace : ' ' ∉ (shownFor k m symbols host).toList := by
      rw [hname]
      exact Grammar.space_notMem_quoted hword
    have htext := text_eq_shownFor hnone hs hspace
    subst hpk
    exact suffix_of_newCandidates (newCandidates_hinted htext hhint hsame)
  · obtain ⟨hhint, hentry⟩ := Grammar.captures?_missingParentheses_suffixed hf hf'
    subst hpk
    refine suffix_of_newCandidates (List.filter_eq_nil_iff.2 fun c hc => ?_)
    have hnone : c ∈ ([] : List Candidate) := suggest_missingParentheses hhint hentry ▸ hc
    cases hnone

theorem message_diagnose (e : Engine) {r : Report} (symbols : Environment) (host : Host)
    (h : r.stage ≠ .annotated) :
    (e.diagnose r symbols host).message = r.message ++ e.suffix r symbols host := by
  rw [e.diagnose_eq symbols host h]
  rfl

/-- A message that a diagnosis has given back is not changed by another one, when it is captured
again as the message of a fresh report, among the same symbols and files. -/
theorem message_diagnose_again (r : Report) (symbols : Environment) (host : Host)
    (hstage : r.stage ≠ .annotated) (hmemory : r.kind ≠ .outOfMemory)
    (hoverflow : r.kind ≠ .overflow) :
    let message := (standard.diagnose r symbols host).message
    (standard.diagnose (.new r.kind message) symbols host).message = message := by
  intro message
  have hraw : (Report.new r.kind message).stage ≠ .annotated := nofun
  have hfresh : standard.suffix r symbols host =
      standard.suffix (.new r.kind r.message) symbols host :=
    suffix_congr standard symbols host rfl rfl
  have hagain : standard.suffix (.new r.kind message) symbols host = "" := by
    show standard.suffix (.new r.kind (standard.diagnose r symbols host).message) symbols host = ""
    rw [message_diagnose standard symbols host hstage, hfresh]
    by_cases hs : standard.suffix (.new r.kind r.message) symbols host = ""
    · rw [hs, String.append_empty]
      exact hs
    · exact suffix_of_suffixed hmemory hoverflow hs
  rw [message_diagnose standard symbols host hraw, hagain]
  exact String.append_empty

/-- A call without parentheses receives its suffix once. -/
theorem message_diagnose_again_print :
    let r := Report.new .syntaxProblem "Missing parentheses in call to 'print'"
    let host := Host.ofVariables ⟨⟨.empty, []⟩⟩ []
    let message := "Missing parentheses in call to 'print'. Did you mean 'print(...)'?"
    (standard.diagnose r .empty host).message = message ∧
      (standard.diagnose (.new .syntaxProblem message) .empty host).message = message := by
  intro r host message
  have hraw : r.stage ≠ .annotated := by decide
  have hfields : standard.grammar.classify .syntaxProblem
      "Missing parentheses in call to 'print'" =
        ⟨some "syntax.missing_parentheses", [(.func, "print")]⟩ := by
    have hfirst : (Grammar.standardPhrasings.filter (·.kind = .syntaxProblem)).findSome?
        (·.captures? "Missing parentheses in call to 'print'") =
          some ⟨some "syntax.missing_parentheses", [(.func, "print")]⟩ := by decide +kernel
    rw [grammar_standard, Grammar.classify_standard]
    exact congrArg (·.getD .empty) hfirst
  have hsuggest : standard.newCandidates .syntaxProblem
      ⟨some "syntax.missing_parentheses", [(.func, "print")]⟩ .empty host =
        [⟨"'print(...)'", "outdated-print", none⟩] := by
    rw [newCandidates, suggest, strategiesFor_syntaxProblem]
    decide +kernel
  have hsuffix : standard.suffix r .empty host = ". Did you mean 'print(...)'?" := by
    rw [suffix_eq_compose, textsFor, hfields, hsuggest]
    simp [Suffix.compose, Suffix.shown, distinct, distinctOn_cons]
  have hmessage : (standard.diagnose r .empty host).message = message := by
    rw [message_diagnose standard .empty host hraw, hsuffix]
    decide
  have hagain := message_diagnose_again r .empty host hraw (by decide) (by decide)
  rw [hmessage] at hagain
  exact ⟨hmessage, hagain⟩

end Engine

end ErrorHints
