import ErrorHints.Engine
import ErrorHints.Proofs.Grammar.Overlap

/-!
# What suggestions depend on

A strategy is handed everything that is known of a failure and looks at little of it. The standard
strategies read the captured fields by name and never ask which phrasing captured them, so an old
and a new wording of one failure get the same answer. Those for paths look at the host and at
neither symbols nor knowledge; all others leave the host alone. Syntax errors are the exception
among the former: what is proposed for them goes by the phrasing, and by its hint.

`Reads` says that a search depends on certain fields only. It is a property of searches and not
of strategies, so it is composed along `do` blocks (`Reads.bind`).

Results:
* `Strategy.reads_or_syntaxProblem`, `Strategy.ignoresHost_or_path`,
  `Strategy.ignoresSymbols_or_other`: the three tables of the standard strategies.
* `Engine.suggest_congr`: suggestions are equal if those of each strategy are.
* `Engine.suggest_depends_only`: what the standard suggestions depend on.
-/
namespace ErrorHints

namespace Strategy

/-! ## Fields -/

/-- The fields that strategies read for what failed. -/
def subjectFields : List FieldName :=
  [.name, .attr, .typeName, .className, .moduleName, .func, .arg, .path]

/-- A search that depends on no field but those of what failed, and not on the phrasing. -/
def Reads {α : Type} (find : Context → α) : Prop :=
  ∀ (cx : Context) (fields : Fields),
    (∀ f ∈ subjectFields, fields.get? f = cx.fields.get? f) → find { cx with fields } = find cx

variable {α β : Type}

theorem reads_field {f : FieldName} (hf : f ∈ subjectFields) : Reads (·.field f) := by
  intro cx fields h
  simp only [Context.field, h f hf]

theorem reads_receiver : Reads (·.receiver) := by
  intro cx fields h
  have hmodule := h .moduleName (by decide)
  have htype := h .typeName (by decide)
  have hclass := h .className (by decide)
  simp only [Context.receiver, Context.receiver?, Context.moduleReceiver?,
    Context.instanceReceiver?, Context.classReceiver?, hmodule, htype, hclass]

theorem reads_calleeParameters? : Reads (·.calleeParameters?) := by
  intro cx fields h
  have hfunc := h .func (by decide)
  simp only [Context.calleeParameters?, Context.parametersOf?, hfunc]

/-- A search followed by another one. -/
theorem Reads.bind {first : Context → Except Inapplicable α}
    {rest : α → Context → Except Inapplicable β} (h : Reads first) (hrest : ∀ a, Reads (rest a)) :
    Reads fun cx => first cx >>= (rest · cx) := by
  intro cx fields hfields
  show first { cx with fields } >>= (rest · { cx with fields }) = first cx >>= (rest · cx)
  rw [h cx fields hfields]
  cases first cx with
  | ok a => exact hrest a cx fields hfields
  | error why => rfl

theorem reads_valueOfType : Reads (·.valueOfType) :=
  (reads_field (by decide)).bind fun _ _ _ _ => rfl

theorem reads_of {name : String} {kinds : List Kind} {find : Finder} (h : Reads find) :
    Reads (of name kinds find).generate := by
  intro cx fields hfields
  simp only [of, h cx fields hfields]

/-- A strategy that asks for one field and looks at no other. -/
theorem reads_of_field {name : String} {kinds : List Kind} {f : FieldName}
    {rest : String → Finder} (hf : f ∈ subjectFields)
    (hrest : ∀ value cx fields, rest value { cx with fields } = rest value cx) :
    Reads (of name kinds fun cx => cx.field f >>= (rest · cx)).generate :=
  reads_of ((reads_field hf).bind fun value cx fields _ => hrest value cx fields)

theorem reads_builtinAsAttribute : Reads builtinAsAttribute.generate := by
  refine reads_of ((reads_field (by decide)).bind fun attr cx fields h => ?_)
  have htype := h .typeName (by decide)
  have hclass := h .className (by decide)
  simp only [reads_receiver cx fields h, htype, hclass]

theorem reads_removedAttribute : Reads removedAttribute.generate := by
  refine reads_of ((reads_field (by decide)).bind fun attr cx fields h => ?_)
  simp only [reads_receiver cx fields h]

theorem reads_attributeSynonym : Reads attributeSynonym.generate := by
  refine reads_of ((reads_field (by decide)).bind fun attr cx fields h => ?_)
  simp only [reads_receiver cx fields h]

theorem reads_attributeTypo : Reads attributeTypo.generate :=
  reads_of ((reads_field (by decide)).bind fun _ => reads_receiver.bind fun _ _ _ _ => rfl)

theorem reads_attributeOnOtherSymbol : Reads attributeOnOtherSymbol.generate := by
  refine reads_of ((reads_field (by decide)).bind fun attr cx fields h => ?_)
  have htype := h .typeName (by decide)
  simp only [reads_receiver cx fields h, htype]

theorem reads_unexpectedKeyword : Reads unexpectedKeyword.generate := by
  refine reads_of ((reads_field (by decide)).bind fun arg cx fields h => ?_)
  simp only [reads_calleeParameters? cx fields h]

theorem reads_importedNameTypo : Reads importedNameTypo.generate :=
  reads_of ((reads_field (by decide)).bind fun _ =>
    (reads_field (by decide)).bind fun _ _ _ _ => rfl)

/-- The standard strategies read the fields of what failed, but for those for syntax errors. -/
theorem reads_or_syntaxProblem : ∀ s ∈ standardStrategies,
    Reads s.generate ∨ s.kinds = [.syntaxProblem] := by
  simp only [standardStrategies, List.forall_mem_cons, List.not_mem_nil, false_imp_iff,
    implies_true, and_true]
  exact ⟨
    -- names
    .inl (reads_of_field (by decide) fun _ _ _ => rfl),
    .inl (reads_of_field (by decide) fun _ _ _ => rfl),
    .inl (reads_of_field (by decide) fun _ _ _ => rfl),
    .inl (reads_of_field (by decide) fun _ _ _ => rfl),
    .inl (reads_of_field (by decide) fun _ _ _ => rfl),
    .inl (reads_of_field (by decide) fun _ _ _ => rfl),
    .inl (reads_of_field (by decide) fun _ _ _ => rfl),
    -- attributes
    .inl reads_builtinAsAttribute, .inl reads_removedAttribute, .inl reads_attributeSynonym,
    .inl reads_attributeTypo, .inl reads_attributeOnOtherSymbol,
    -- calls and types
    .inl reads_unexpectedKeyword,
    .inl (reads_of (reads_valueOfType.bind fun _ _ _ _ => rfl)),
    .inl (reads_of (reads_valueOfType.bind fun _ _ _ _ => rfl)),
    .inl (reads_of_field (by decide) fun _ _ _ => rfl),
    -- imports
    .inl (reads_of_field (by decide) fun _ _ _ => rfl),
    .inl (reads_of_field (by decide) fun _ _ _ => rfl),
    .inl reads_importedNameTypo,
    -- syntax
    .inr rfl, .inr rfl, .inr rfl,
    -- costly calls, and paths
    .inl fun _ _ _ => rfl,
    .inl (reads_of_field (by decide) fun _ _ _ => rfl),
    .inl (reads_of_field (by decide) fun _ _ _ => rfl),
    .inl (reads_of_field (by decide) fun _ _ _ => rfl)⟩

/-! ## Hosts, symbols and knowledge -/

/-- The kinds of failure of a path. -/
def pathKinds : List Kind := [.fileNotFound, .isADirectory, .notADirectory]

/-- The standard strategies do not look at the host, but for those for paths. -/
theorem ignoresHost_or_path : ∀ s ∈ standardStrategies,
    (∀ cx host, s.generate { cx with host } = s.generate cx) ∨ s.kinds ⊆ pathKinds := by
  simp only [standardStrategies, List.forall_mem_cons, List.not_mem_nil, false_imp_iff,
    implies_true, and_true]
  and_intros
  all_goals first | exact .inr (by decide) | exact .inl fun _ _ => rfl

/-- The standard strategies for paths look at neither symbols nor knowledge. -/
theorem ignoresSymbols_or_other : ∀ s ∈ standardStrategies,
    (∀ cx symbols knowledge, s.generate { cx with symbols, knowledge } = s.generate cx) ∨
      ∀ k ∈ s.kinds, k ∉ pathKinds := by
  simp only [standardStrategies, List.forall_mem_cons, List.not_mem_nil, false_imp_iff,
    implies_true, and_true]
  and_intros
  all_goals first | exact .inr (by decide) | exact .inl fun _ _ _ => rfl

end Strategy

/-! ## The engine -/

namespace Engine

/-- Two engines of the same strategies suggest the same if each strategy for the kind does. -/
theorem suggest_congr {e e' : Engine} {ss : List Strategy} {kind : Kind} {fields fields' : Fields}
    {symbols symbols' : Environment} {host host' : Host} (he : e.registry = .ofStrategies ss)
    (he' : e'.registry = .ofStrategies ss)
    (h : ∀ s ∈ ss, kind ∈ s.kinds → s.generate (e.context kind fields symbols host) =
      s.generate (e'.context kind fields' symbols' host')) :
    e.suggest kind fields symbols host = e'.suggest kind fields' symbols' host' := by
  rw [suggest, suggest, he, he']
  refine List.flatMap_congr fun s hs => ?_
  obtain ⟨hs, hk⟩ := Registry.mem_strategiesFor_ofStrategies.1 hs
  rw [h s hs hk]

/-- What the suggestions of the standard strategies depend on, whatever the knowledge. Unless the
failure is a syntax error, they depend on eight fields by value: neither the phrasing nor the
order of the fields counts, nor any other field. Unless the failure is one of a path, they do not
depend on the host; and if it is, they depend on neither symbols nor knowledge. -/
theorem suggest_depends_only (e e' : Engine) (he : e.registry = .standard)
    (he' : e'.registry = .standard) (kind : Kind) :
    (kind ≠ .syntaxProblem → ∀ fields fields' : Fields,
      (∀ f ∈ [FieldName.name, .attr, .typeName, .className, .moduleName, .func, .arg, .path],
        fields.get? f = fields'.get? f) →
      ∀ symbols host, e.suggest kind fields symbols host = e.suggest kind fields' symbols host) ∧
    (kind ∉ [Kind.fileNotFound, .isADirectory, .notADirectory] → ∀ fields symbols host host',
      e.suggest kind fields symbols host = e.suggest kind fields symbols host') ∧
    (kind ∈ [Kind.fileNotFound, .isADirectory, .notADirectory] →
      ∀ fields symbols symbols' host,
        e.suggest kind fields symbols host = e'.suggest kind fields symbols' host) := by
  refine ⟨fun hkind fields fields' hfields symbols host => ?_,
    fun hkind fields symbols host host' => ?_, fun hkind fields symbols symbols' host => ?_⟩
  · refine suggest_congr he he fun s hs hmem => ?_
    rcases Strategy.reads_or_syntaxProblem s hs with hreads | hproblem
    · exact hreads (e.context kind fields' symbols host) fields hfields
    · rw [hproblem] at hmem
      exact absurd (List.mem_singleton.1 hmem) hkind
  · refine suggest_congr he he fun s hs hmem => ?_
    rcases Strategy.ignoresHost_or_path s hs with hignores | hpath
    · exact hignores (e.context kind fields symbols host') host
    · exact absurd (hpath hmem) hkind
  · refine suggest_congr he he' fun s hs hmem => ?_
    rcases Strategy.ignoresSymbols_or_other s hs with hignores | hother
    · exact hignores (e'.context kind fields symbols' host) symbols e.knowledge
    · exact absurd hkind (hother kind hmem)

/-- Two wordings of one failure, two hosts, and two engines of different knowledge. -/
theorem suggest_depends_only_reworded :
    let unread : Engine := { knowledge := { Knowledge.standard with modules := [] } }
    let older := Grammar.standard.classify .nameNotDefined "global name 'prnt' is not defined"
    let newer := Grammar.standard.classify .nameNotDefined
      "name 'prnt' is not defined. Did you mean: 'print'?"
    let missing := Grammar.standard.classify .fileNotFound
      "[Errno 2] No such file or directory: '~/notes'"
    older ≠ newer ∧
    (∀ symbols host, standard.suggest .nameNotDefined older symbols host =
      standard.suggest .nameNotDefined newer symbols host) ∧
    (∀ symbols host host', standard.suggest .nameNotDefined older symbols host =
      standard.suggest .nameNotDefined older symbols host') ∧
    ∀ symbols symbols' host, standard.suggest .fileNotFound missing symbols host =
      unread.suggest .fileNotFound missing symbols' host := by
  intro unread older newer missing
  have holder : older = ⟨some "name.global_not_defined", [(.name, "prnt")]⟩ := by
    refine (Grammar.classify_standard _ _).trans ?_
    decide +kernel
  have hnewer : newer = ⟨some "name.not_defined", [(.name, "prnt"), (.hint, "'print'")]⟩ := by
    refine (Grammar.classify_standard _ _).trans ?_
    decide +kernel
  obtain ⟨hfields, hhosts, -⟩ := suggest_depends_only standard unread rfl rfl .nameNotDefined
  obtain ⟨-, -, hpaths⟩ := suggest_depends_only standard unread rfl rfl .fileNotFound
  refine ⟨?_, hfields (by decide) older newer ?_, hhosts (by decide) older,
    hpaths (by decide) missing⟩
  · rw [holder, hnewer]
    decide
  · rw [holder, hnewer]
    decide

end Engine

end ErrorHints
