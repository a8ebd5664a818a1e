import ErrorHints.Engine
import ErrorHints.Proofs.Grammar.Overlap

/-!
# Messages that no phrasing accepts

Strategies are meant to hold back when the message was not understood. All standard strategies
do but one: the alternatives to costly calls are read off the kind and the source line, so they
are proposed whatever the message says. This concerns the two kinds of failure that have such
alternatives; a message of any other kind that is not understood is left alone.

Results:
* `suggest_eq_nil_iff`: nothing is suggested exactly if no strategy for the kind has a candidate.
* `Strategy.abstains_or_eq`: the standard strategies hold back, but one.
* `facets_diagnose_eq_iff`: a report stays as it is exactly if its suffix is empty.
* `diagnose_unclassified`: when a message that is not understood is left alone.
-/
namespace ErrorHints

theorem Grammar.classify_of_not_accepts {g : Grammar} {k : Kind} {m : String}
    (h : ∀ p ∈ g.phrasingsFor k, p.accepts m = false) : g.classify k m = .empty := by
  have hnone : (g.phrasingsFor k).findSome? (·.captures? m) = none := by
    rw [List.findSome?_eq_none_iff]
    intro p hp
    rw [← Option.not_isSome_iff_eq_none, ← p.accepts_eq_isSome_captures?, h p hp]
    exact Bool.false_ne_true
  rw [Grammar.classify, hnone, Option.getD_none]

/-- The fields of a message are those that some phrasing of the kind gives, if there are any. -/
theorem Grammar.classify_eq_empty_or (g : Grammar) (k : Kind) (m : String) :
    g.classify k m = .empty ∨
      ∃ p ∈ g.phrasingsFor k, p.captures? m = some (g.classify k m) := by
  unfold Grammar.classify
  cases h : (g.phrasingsFor k).findSome? (·.captures? m) with
  | none => exact .inl rfl
  | some f => exact .inr (List.exists_of_findSome?_eq_some h)

theorem Grammar.classify_standard_eq_empty_or (k : Kind) (m : String) :
    standard.classify k m = .empty ∨
      ∃ p ∈ standardPhrasings, p.kind = k ∧ p.captures? m = some (standard.classify k m) := by
  rcases standard.classify_eq_empty_or k m with hempty | ⟨e, he, hf⟩
  · exact .inl hempty
  · rw [phrasingsFor_standard] at he
    obtain ⟨p, hmem, rfl⟩ := List.mem_map.1 he
    obtain ⟨hp, hkind⟩ := List.mem_filter.1 hmem
    exact .inr ⟨p, hp, of_decide_eq_true hkind, hf⟩

/-! ## Strategies -/

namespace Strategy

/-- A strategy that proposes nothing when no phrasing accepts the message. -/
def Abstains (s : Strategy) : Prop :=
  ∀ cx : Context, cx.fields = .empty → (s.generate cx).candidates = []

/-- A search that does not apply when no phrasing accepts the message. -/
def NeedsFields {α : Type} (find : Context → Except Inapplicable α) : Prop :=
  ∀ cx : Context, cx.fields = .empty → ∃ why, find cx = .error why

theorem needsFields_field (f : FieldName) : NeedsFields (·.field f) := by
  intro cx h
  refine ⟨.missingField f, ?_⟩
  show cx.field f = .error (.missingField f)
  unfold Context.field
  rw [h, Fields.get?_empty]

theorem needsFields_bind {α β : Type} {first : Context → Except Inapplicable α}
    (h : NeedsFields first) (rest : α → Context → Except Inapplicable β) :
    NeedsFields fun cx => first cx >>= (rest · cx) := by
  intro cx hcx
  obtain ⟨why, hwhy⟩ := h cx hcx
  exact ⟨why, by simp only [hwhy]; rfl⟩

theorem abstains_of {name : String} {kinds : List Kind} {find : Finder} (h : NeedsFields find) :
    (of name kinds find).Abstains := by
  intro cx hcx
  obtain ⟨why, hwhy⟩ := h cx hcx
  rw [candidates_of, hwhy]

/-- A strategy that asks for a field first. -/
theorem abstains_of_field {name : String} {kinds : List Kind} (f : FieldName)
    (rest : String → Finder) : (of name kinds fun cx => cx.field f >>= (rest · cx)).Abstains :=
  abstains_of (needsFields_bind (needsFields_field f) rest)

/-- A strategy that asks for the value of the type in the message first. -/
theorem abstains_of_valueOfType {name : String} {kinds : List Kind} (rest : Value → Finder) :
    (of name kinds fun cx => cx.valueOfType >>= (rest · cx)).Abstains :=
  abstains_of (needsFields_bind (needsFields_bind (needsFields_field .typeName) _) rest)

theorem hasEntry_of_empty {cx : Context} (h : cx.fields = .empty) (entries : List String) :
    hasEntry cx entries = false := by
  rw [hasEntry, h]
  rfl

theorem candidates_outdatedComparison {cx : Context}
    (h : hasEntry cx invalidSyntaxEntries = false) :
    (outdatedComparison.generate cx).candidates = [] := by
  rw [outdatedComparison, candidates_of, h]
  rfl

theorem candidates_octalLiteral {cx : Context} (h : hasEntry cx invalidNumberEntries = false) :
    (octalLiteral.generate cx).candidates = [] := by
  rw [octalLiteral, candidates_of, h]
  rfl

/-- The standard strategies hold back, but one. -/
theorem abstains_or_eq : ∀ s ∈ standardStrategies, s.Abstains ∨ s = footprintAlternative := by
  simp only [standardStrategies, List.forall_mem_cons]
  exact ⟨
    -- names
    .inl (abstains_of_field .name _), .inl (abstains_of_field .name _),
    .inl (abstains_of_field .name _), .inl (abstains_of_field .name _),
    .inl (abstains_of_field .name _), .inl (abstains_of_field .name _),
    .inl (abstains_of_field .name _),
    -- attributes
    .inl (abstains_of_field .attr _), .inl (abstains_of_field .attr _),
    .inl (abstains_of_field .attr _), .inl (abstains_of_field .attr _),
    .inl (abstains_of_field .attr _),
    -- calls and types
    .inl (abstains_of_field .arg _), .inl (abstains_of_valueOfType _),
    .inl (abstains_of_valueOfType _), .inl (abstains_of_field .typeName _),
    -- imports
    .inl (abstains_of_field .moduleName _), .inl (abstains_of_field .moduleName _),
    .inl (abstains_of_field .name _),
    -- syntax
    .inl (abstains_of_field .func _),
    .inl fun _ h => candidates_outdatedComparison (hasEntry_of_empty h _),
    .inl fun _ h => candidates_octalLiteral (hasEntry_of_empty h _),
    -- the exception, and paths
    .inr trivial,
    .inl (abstains_of_field .path _), .inl (abstains_of_field .path _),
    .inl (abstains_of_field .path _), nofun⟩

/-- The line calls something for which there is an alternative if the failure is of this kind. -/
def CallsCostly (knowledge : Knowledge) (kind : Kind) (symbols : Environment) : Prop :=
  ∃ table ∈ costlyCalls knowledge kind, ∃ line ∈ symbols.sourceLine,
    ∃ callee ∈ SourceLine.calledNames line, (alternativeTo? table callee).isSome

theorem candidates_footprintAlternative_eq_nil_iff (cx : Context) :
    (footprintAlternative.generate cx).candidates = [] ↔
      ¬ CallsCostly cx.knowledge cx.kind cx.symbols := by
  rw [footprintAlternative, candidates_of]
  unfold CallsCostly
  cases costlyCalls cx.knowledge cx.kind with
  | none => simp
  | some table =>
    cases cx.symbols.sourceLine with
    | none => simp
    | some line => simp [distinct_eq_nil_iff, List.filterMap_eq_nil_iff]

/-- The kinds of failure that have alternatives are those of the strategy. -/
theorem mem_kinds_of_callsCostly {knowledge : Knowledge} {kind : Kind} {symbols : Environment}
    (h : CallsCostly knowledge kind symbols) : kind ∈ footprintAlternative.kinds := by
  obtain ⟨table, htable, -⟩ := h
  cases kind with
  | outOfMemory | overflow => simp [footprintAlternative, of]
  | _ => cases htable

end Strategy

/-! ## The engine -/

namespace Engine

variable (e : Engine) (kind : Kind) (fields : Fields) (r : Report) (symbols : Environment)
  (host : Host)

/-- Nothing is suggested exactly if no strategy for the kind has a candidate. -/
theorem suggest_eq_nil_iff {ss : List Strategy} (h : e.registry = .ofStrategies ss) :
    e.suggest kind fields symbols host = [] ↔
      ∀ s ∈ ss, kind ∈ s.kinds →
        (s.generate (e.context kind fields symbols host)).candidates = [] := by
  rw [suggest, h, List.flatMap_eq_nil_iff]
  simp only [Registry.mem_strategiesFor_ofStrategies, and_imp]

/-- Without fields, the standard strategies propose alternatives to costly calls only. -/
theorem suggest_empty_eq_nil_iff (h : e.registry = .standard) :
    e.suggest kind .empty symbols host = [] ↔
      ¬ Strategy.CallsCostly e.knowledge kind symbols := by
  have hcostly : _ ↔ ¬ Strategy.CallsCostly e.knowledge kind symbols :=
    Strategy.candidates_footprintAlternative_eq_nil_iff (e.context kind .empty symbols host)
  rw [suggest_eq_nil_iff e kind .empty symbols host h, ← hcostly]
  constructor
  · intro hall
    by_cases hk : kind ∈ Strategy.footprintAlternative.kinds
    · exact hall _ (by simp [standardStrategies]) hk
    · rw [hcostly]
      intro h
      exact hk (Strategy.mem_kinds_of_callsCostly h)
  · intro hnone s hs _
    rcases Strategy.abstains_or_eq s hs with habstains | rfl
    · exact habstains _ rfl
    · exact hnone

theorem facets_diagnose_eq_iff (h : r.stage ≠ .annotated) :
    (e.diagnose r symbols host).facets = r.facets ↔ e.suffix r symbols host = "" := by
  rw [e.facets_diagnose symbols host h]
  constructor
  · intro heq
    have hmessage : r.message ++ e.suffix r symbols host = r.message := (List.cons.inj heq).1
    rw [← String.toList_inj, String.toList_append] at hmessage
    exact String.toList_inj.1 (List.append_right_eq_self.1 hmessage)
  · intro hs
    rw [hs]
    simp

theorem suffix_eq_empty_iff (hfields : e.grammar.classify r.kind r.message = .empty) :
    e.suffix r symbols host = "" ↔
      e.suggest r.kind .empty symbols host = [] ∨ e.maxSuggestions = some 0 := by
  have hnew : e.newCandidates r.kind .empty symbols host = e.suggest r.kind .empty symbols host :=
    List.filter_eq_self.2 fun c _ => rfl
  simp only [suffix, hfields, hnew]
  rw [Suffix.compose_eq_empty_iff, List.map_eq_nil_iff]

/-- When no phrasing accepts the message, the standard strategies propose exactly the
alternatives to costly calls in the source line. So the report is left alone unless the failure
is of one of the two kinds that have alternatives and the line calls what they replace. -/
theorem diagnose_unclassified (hstandard : e.registry = .standard)
    (hmessage : ∀ p ∈ e.grammar.phrasingsFor r.kind, p.accepts r.message = false) :
    let fields := e.grammar.classify r.kind r.message
    let costly := Strategy.CallsCostly e.knowledge r.kind symbols
    fields = .empty ∧
    (e.suggest r.kind fields symbols host = [] ↔ ¬ costly) ∧
    ((e.diagnose r symbols host).facets = r.facets ↔
      r.stage = .annotated ∨ e.maxSuggestions = some 0 ∨ ¬ costly) ∧
    (costly → r.kind = .outOfMemory ∨ r.kind = .overflow) := by
  intro fields costly
  have hfields : fields = .empty := Grammar.classify_of_not_accepts hmessage
  have hsuggest : e.suggest r.kind fields symbols host = [] ↔ ¬ costly := by
    rw [hfields]
    exact suggest_empty_eq_nil_iff e r.kind symbols host hstandard
  refine ⟨hfields, hsuggest, ?_, fun h => ?_⟩
  · by_cases hstage : r.stage = .annotated
    · simp [hstage, e.diagnose_of_annotated symbols host hstage]
    · rw [facets_diagnose_eq_iff e r symbols host hstage,
        suffix_eq_empty_iff e r symbols host hfields, ← hsuggest, hfields]
      simp [hstage, or_comm]
  · simpa [Strategy.footprintAlternative, Strategy.of] using Strategy.mem_kinds_of_callsCostly h

/-- A line that calls `range` gets an alternative, though the message is not understood. -/
theorem diagnose_unclassified_range :
    let r := Report.new .overflow "something unexpected happened"
    let symbols : Environment := { sourceLine := some "for i in range(10 ** 20): pass" }
    let host := Host.ofVariables ⟨⟨.empty, []⟩⟩ []
    (∀ p ∈ standard.grammar.phrasingsFor r.kind, p.accepts r.message = false) ∧
      Strategy.CallsCostly standard.knowledge r.kind symbols ∧
      (standard.diagnose r symbols host).facets ≠ r.facets := by
  intro r symbols host
  have hmessage : ∀ p ∈ standard.grammar.phrasingsFor r.kind, p.accepts r.message = false := by
    have hall : (Grammar.standardPhrasings.filter (·.kind = .overflow)).all
        (!·.accepts "something unexpected happened") := by decide +kernel
    intro e he
    rw [grammar_standard, Grammar.phrasingsFor_standard] at he
    obtain ⟨p, hp, rfl⟩ := List.mem_map.1 he
    show p.accepts "something unexpected happened" = false
    simpa using List.all_eq_true.1 hall p hp
  have hcalled : "range" ∈ SourceLine.calledNames "for i in range(10 ** 20): pass" := by
    decide +kernel
  have hfound :
      (Strategy.alternativeTo? Knowledge.standard.overflowAlternatives "range").isSome := by
    decide +kernel
  have hcostly : Strategy.CallsCostly standard.knowledge r.kind symbols :=
    ⟨Knowledge.standard.overflowAlternatives, rfl, _, rfl, "range", hcalled, hfound⟩
  refine ⟨hmessage, hcostly, fun heq => ?_⟩
  obtain ⟨-, -, hfacets, -⟩ := diagnose_unclassified standard r symbols host rfl hmessage
  rcases hfacets.1 heq with hstage | hcap | hnot
  · cases hstage
  · cases hcap
  · exact hnot hcostly

end Engine

end ErrorHints
