import ErrorHints.Proofs.Engine.Unclassified
import ErrorHints.Proofs.Grammar.RoundTrip

/-!
# Phrasings serve the strategies

Phrasings and strategies are kept in two tables that have nothing in common but the names of
fields. They agree: whatever a strategy cannot do without is captured by every phrasing of the
kinds it is meant for, in a group that always takes part. So no strategy is lost to a field that
a wording happens not to have, with one exception: an import from a module cannot be looked up if
the message does not name the module, which two old wordings do not.

`Pattern.mandatory` are the groups that take part in every text, `Strategy.demanded` are the
fields that strategies ask for, kind by kind; the tables are compared in `demanded_mandatory`.
Syntax errors are left aside: only one of their phrasings names anything.

Results:
* `Pattern.Renders.mem_names`: a mandatory group takes part in every text.
* `Strategy.asks_standard`: the fields that the standard strategies ask for.
* `Engine.eq_of_missingField`: which fields can be missing, and when.
* `Engine.missingField_standard`: the same for each kind.
-/
namespace ErrorHints

/-! ## Groups that always take part -/

namespace Pattern

variable {ν : Type} [DecidableEq ν]

/-- The groups that take part in every text that is written after the pattern. -/
def mandatory : Pattern ν → List ν
  | text _ | one _ | place _ => []
  | seq p q => p.mandatory ++ q.mandatory
  | alt p q => p.mandatory.filter (· ∈ q.mandatory)
  | repeated .atLeastOne _ p => p.mandatory
  | repeated _ _ _ => []
  | group name p => name :: p.mandatory

/-- A group that is mandatory under some rounds is so in each of them, and there is one. -/
theorem mandatory_repeated {r : Rounds} {eager : Bool} {p : Pattern ν} {name : ν}
    (h : name ∈ (repeated r eager p).mandatory) : r = .atLeastOne ∧ name ∈ p.mandatory := by
  cases r with
  | atLeastOne => exact ⟨rfl, h⟩
  | atMostOne | anyNumber => cases h

theorem Renders.mem_names {p : Pattern ν} {w : List Char} {vs : List (ν × List Char)}
    (h : p.Renders w vs) {name : ν} (hname : name ∈ p.mandatory) : name ∈ vs.map Prod.fst := by
  induction h with
  | text | one | place => cases hname
  | seq _ _ ihp ihq =>
    rw [List.map_append]
    rcases List.mem_append.1 hname with hp | hq
    · exact List.mem_append_left _ (ihp hp)
    · exact List.mem_append_right _ (ihq hq)
  | left _ ih => exact ih (List.mem_filter.1 hname).1
  | right _ ih => exact ih (of_decide_eq_true (List.mem_filter.1 hname).2)
  | absent hr => exact absurd (mandatory_repeated hname).1 hr
  | once _ ih => exact ih (mandatory_repeated hname).2
  | again _ _ _ ih _ =>
    rw [List.map_append]
    exact List.mem_append_left _ (ih (mandatory_repeated hname).2)
  | group _ ih =>
    rcases List.mem_cons.1 hname with rfl | hp
    · exact List.mem_cons_self
    · exact List.mem_cons_of_mem _ (ih hp)

end Pattern

/-! ## Fields that a phrasing gives -/

namespace Phrasing

variable {p : Phrasing} {m : String} {fields : Fields} {f : FieldName}

theorem isSome_get?_of_mandatory (h : p.isExact) (hc : p.captures? m = some fields)
    (hf : f ∈ p.pattern.mandatory) : (fields.get? f).isSome := by
  obtain ⟨vs, hr, rfl⟩ := (captures?_eq_some_iff h).1 hc
  rw [Fields.get?, fieldsOf, Slots.get?_isSome_iff, keys_textsOf]
  exact hr.mem_names hf

theorem get?_of_notMem (h : p.isExact) (hc : p.captures? m = some fields) (hf : f ∉ p.fields) :
    fields.get? f = none := by
  obtain ⟨q, hq⟩ := exists_exact h
  obtain ⟨vs, hr, rfl⟩ := (captures?_eq_some_iff h).1 hc
  rw [← Option.not_isSome_iff_eq_none, Fields.get?, fieldsOf, Slots.get?_isSome_iff, keys_textsOf]
  exact fun hm => hf ((hq.names_sublist hr).mem hm)

end Phrasing

/-! ## Fields that strategies ask for -/

namespace Strategy

variable {α β : Type} {names : List FieldName} {cx : Context}

/-- A result that misses a field only if it is one of the given ones and not there. -/
def MissesOnly (names : List FieldName) (fields : Fields) (r : Except Inapplicable α) : Prop :=
  ∀ f, r = .error (.missingField f) → f ∈ names ∧ fields.get? f = none

namespace MissesOnly

variable {fields : Fields}

theorem ok (a : α) : MissesOnly names fields (.ok a) := fun _ => nofun

theorem error {why : Inapplicable} (h : ∀ f, why ≠ .missingField f) :
    MissesOnly (α := α) names fields (.error why) :=
  fun f herr => absurd (Except.error.inj herr) (h f)

theorem bind {r : Except Inapplicable α} {rest : α → Except Inapplicable β}
    (h : MissesOnly names fields r) (hrest : ∀ a, MissesOnly names fields (rest a)) :
    MissesOnly names fields (r >>= rest) := by
  cases r with
  | ok a => exact hrest a
  | error why => exact fun f herr => h f (congrArg Except.error (Except.error.inj herr))

theorem field {f : FieldName} (hf : f ∈ names) : MissesOnly names cx.fields (cx.field f) := by
  unfold Context.field
  split
  · exact ok _
  · next hnone =>
    intro f' herr
    cases herr
    exact ⟨hf, hnone⟩

theorem receiver : MissesOnly names cx.fields cx.receiver := by
  unfold Context.receiver
  split
  · exact ok _
  · exact error nofun

theorem valueOfType (hf : .typeName ∈ names) : MissesOnly names cx.fields cx.valueOfType := by
  refine (field hf).bind fun typeName => ?_
  split
  · exact ok _
  · exact error nofun

end MissesOnly

/-- A strategy that needs no fields but the given ones. -/
def Asks (names : List FieldName) (s : Strategy) : Prop :=
  ∀ cx f, s.generate cx = .inapplicable (.missingField f) → f ∈ names ∧ cx.fields.get? f = none

theorem asks_of {name : String} {kinds : List Kind} {find : Finder}
    (h : ∀ cx, MissesOnly names cx.fields (find cx)) : Asks names (of name kinds find) := by
  intro cx f heq
  refine h cx f ?_
  simp only [of] at heq
  cases hfind : find cx with
  | ok found =>
    rw [hfind] at heq
    cases heq
  | error why =>
    rw [hfind] at heq
    cases heq
    rfl

/-- A strategy that asks for one field first. -/
theorem asks_of_field {name : String} {kinds : List Kind} {f : FieldName} {rest : String → Finder}
    (hf : f ∈ names) (hrest : ∀ value cx, MissesOnly names cx.fields (rest value cx)) :
    Asks names (of name kinds fun cx => cx.field f >>= (rest · cx)) :=
  asks_of fun cx => (MissesOnly.field hf).bind fun value => hrest value cx

theorem asks_builtinAsAttribute : Asks [.attr] builtinAsAttribute := by
  refine asks_of_field (by decide) fun attr cx => ?_
  split
  · dsimp only
    split
    · exact .ok _
    · exact MissesOnly.receiver.bind fun receiver => .ok _
  · exact .ok _

theorem asks_removedAttribute : Asks [.attr] removedAttribute := by
  refine asks_of_field (by decide) fun attr cx => ?_
  split
  · exact .ok _
  · refine MissesOnly.receiver.bind fun receiver => ?_
    split <;> exact .ok _

theorem asks_attributeSynonym : Asks [.attr] attributeSynonym := by
  refine asks_of_field (by decide) fun attr cx => ?_
  split
  · exact .ok _
  · exact MissesOnly.receiver.bind fun receiver => .ok _

theorem asks_attributeOnOtherSymbol : Asks [.attr] attributeOnOtherSymbol := by
  refine asks_of_field (by decide) fun attr cx => ?_
  dsimp only
  split
  · exact .ok _
  · exact MissesOnly.receiver.bind fun receiver => .ok _

theorem asks_unexpectedKeyword : Asks [.arg] unexpectedKeyword := by
  refine asks_of_field (by decide) fun arg cx => ?_
  split
  · exact .ok _
  · exact .error nofun

theorem asks_moduleTypo : Asks [.moduleName] moduleTypo := by
  refine asks_of_field (by decide) fun name cx => ?_
  split
  · exact .ok _
  · split <;> exact .ok _

theorem asks_importedNameTypo : Asks [.name, .moduleName] importedNameTypo := by
  refine asks_of_field (by decide) fun name cx => ?_
  refine (MissesOnly.field (by decide)).bind fun moduleName => ?_
  split <;> exact .ok _

theorem asks_directoryListing : Asks [.path] directoryListing := by
  refine asks_of_field (by decide) fun path cx => ?_
  split
  · exact .error nofun
  · exact .ok _
  · exact .ok _

theorem asks_parentDirectory : Asks [.path] parentDirectory := by
  refine asks_of_field (by decide) fun path cx => ?_
  split
  · exact .ok _
  · dsimp only
    split <;> exact .ok _

/-- The fields that the standard strategies for a kind ask for. -/
def demanded : Kind → List FieldName
  | .nameNotDefined | .unboundLocal => [.name]
  | .attributeMissing => [.attr]
  | .importMissing => [.moduleName]
  | .cannotImportName => [.name, .moduleName]
  | .unexpectedKeyword => [.arg]
  | .unsubscriptable | .notCallable | .unhashable => [.typeName]
  | .syntaxProblem => [.func]
  | .fileNotFound | .isADirectory | .notADirectory => [.path]
  | .keyLookupFailed | .indexOutOfRange | .outOfMemory | .overflow => []

theorem asks_standard : ∀ s ∈ standardStrategies,
    ∃ names, s.Asks names ∧ ∀ k ∈ s.kinds, names ⊆ demanded k := by
  simp only [standardStrategies, List.forall_mem_cons, List.not_mem_nil, false_imp_iff,
    implies_true, and_true]
  exact ⟨
    -- names
    ⟨[.name], asks_of_field (by decide) fun _ _ => .ok _, by decide⟩,
    ⟨[.name], asks_of_field (by decide) fun _ _ => by split <;> exact .ok _, by decide⟩,
    ⟨[.name], asks_of_field (by decide) fun _ _ => .ok _, by decide⟩,
    ⟨[.name], asks_of_field (by decide) fun _ _ => by split <;> exact .ok _, by decide⟩,
    ⟨[.name], asks_of_field (by decide) fun _ _ => .ok _, by decide⟩,
    ⟨[.name], asks_of_field (by decide) fun _ _ => .ok _, by decide⟩,
    ⟨[.name], asks_of_field (by decide) fun _ _ => .ok _, by decide⟩,
    -- attributes
    ⟨[.attr], asks_builtinAsAttribute, by decide⟩,
    ⟨[.attr], asks_removedAttribute, by decide⟩,
    ⟨[.attr], asks_attributeSynonym, by decide⟩,
    ⟨[.attr], asks_of_field (by decide) fun _ _ => MissesOnly.receiver.bind fun _ => .ok _,
      by decide⟩,
    ⟨[.attr], asks_attributeOnOtherSymbol, by decide⟩,
    -- calls and types
    ⟨[.arg], asks_unexpectedKeyword, by decide⟩,
    ⟨[.typeName], asks_of fun _ => (MissesOnly.valueOfType (by decide)).bind fun _ => by
      split <;> exact .ok _, by decide⟩,
    ⟨[.typeName], asks_of fun _ => (MissesOnly.valueOfType (by decide)).bind fun _ => by
      split <;> exact .ok _, by decide⟩,
    ⟨[.typeName], asks_of_field (by decide) fun _ _ => .ok _, by decide⟩,
    -- imports
    ⟨[.moduleName], asks_of_field (by decide) fun _ _ => .ok _, by decide⟩,
    ⟨[.moduleName], asks_moduleTypo, by decide⟩,
    ⟨[.name, .moduleName], asks_importedNameTypo, by decide⟩,
    -- syntax
    ⟨[.func], asks_of_field (by decide) fun _ _ => by split <;> exact .ok _, by decide⟩,
    ⟨[], asks_of fun _ => .ok _, by decide⟩, ⟨[], asks_of fun _ => .ok _, by decide⟩,
    -- costly calls, and paths
    ⟨[], asks_of fun _ => .ok _, by decide⟩,
    ⟨[.path], asks_of_field (by decide) fun _ _ => .ok _, by decide⟩,
    ⟨[.path], asks_directoryListing, by decide⟩,
    ⟨[.path], asks_parentDirectory, by decide⟩⟩

end Strategy

/-! ## Both tables -/

/-- The standard phrasings but those of syntax errors capture what the strategies for their kind
ask for, with one exception. -/
theorem demanded_mandatory : ∀ p ∈ Grammar.standardPhrasings, ∀ f ∈ Strategy.demanded p.kind,
    f ∈ p.pattern.mandatory ∨ p.kind = .syntaxProblem ∨
      p.kind = .cannotImportName ∧ f = .moduleName ∧
        (p.id = "import_name.bare" ∨ p.id = "import_name.unquoted") := by
  decide +kernel

/-- The old wordings of an import from a module capture the name only. -/
theorem fields_of_bare : ∀ p ∈ Grammar.standardPhrasings,
    p.id = "import_name.bare" ∨ p.id = "import_name.unquoted" →
      .moduleName ∉ p.fields ∧ .name ∈ p.pattern.mandatory := by
  decide +kernel

namespace Engine

variable {k : Kind} {m : String} {p : Phrasing} {s : Strategy} {cx : Context} {f : FieldName}

theorem exists_phrasing_of_isMatch (h : (Grammar.standard.classify k m).isMatch) :
    ∃ p ∈ Grammar.standardPhrasings, p.kind = k ∧
      p.captures? m = some (Grammar.standard.classify k m) := by
  refine (Grammar.classify_standard_eq_empty_or k m).resolve_left fun hempty => ?_
  rw [hempty] at h
  cases h

/-- If a strategy misses a field that a phrasing does not capture, then the failure is a syntax
error, or an import and the message does not name the module. -/
theorem eq_of_missingField (hp : p ∈ Grammar.standardPhrasings)
    (hf : p.captures? m = some cx.fields) (hs : s ∈ Registry.standard.strategiesFor p.kind)
    (hk : p.kind ≠ .syntaxProblem) (h : s.generate cx = .inapplicable (.missingField f)) :
    p.kind = .cannotImportName ∧ f = .moduleName ∧
      (cx.fields.entry = some "import_name.bare" ∨
        cx.fields.entry = some "import_name.unquoted") := by
  obtain ⟨hs, hmem⟩ := Registry.mem_strategiesFor_ofStrategies.1 hs
  obtain ⟨names, hasks, hsub⟩ := Strategy.asks_standard s hs
  obtain ⟨hname, hnone⟩ := hasks cx f h
  have hrow := demanded_mandatory p hp f (hsub _ hmem hname)
  rcases hrow with hmandatory | hproblem | ⟨hkind, heq, hid⟩
  · have hsome := Phrasing.isSome_get?_of_mandatory (Grammar.isExact_standard hp) hf hmandatory
    rw [hnone] at hsome
    cases hsome
  · exact absurd hproblem hk
  · rw [Phrasing.entry_captures? hf, Option.some_inj, Option.some_inj]
    exact ⟨hkind, heq, hid⟩

theorem strategiesFor_cannotImportName :
    Registry.standard.strategiesFor .cannotImportName = [Strategy.importedNameTypo] :=
  (Registry.strategiesFor_ofStrategies standardStrategies .cannotImportName).trans rfl

/-- The old wordings of an import leave the strategy without the module. -/
theorem generate_importedNameTypo_of_entry (hp : p ∈ Grammar.standardPhrasings)
    (hf : p.captures? m = some cx.fields)
    (hentry : cx.fields.entry = some "import_name.bare" ∨
      cx.fields.entry = some "import_name.unquoted") :
    Strategy.importedNameTypo.generate cx = .inapplicable (.missingField .moduleName) := by
  rw [Phrasing.entry_captures? hf, Option.some_inj, Option.some_inj] at hentry
  obtain ⟨hmodule, hname⟩ := fields_of_bare p hp hentry
  have hexact := Grammar.isExact_standard hp
  have hnone := Phrasing.get?_of_notMem hexact hf hmodule
  obtain ⟨name, hsome⟩ :=
    Option.isSome_iff_exists.1 (Phrasing.isSome_get?_of_mandatory hexact hf hname)
  have hfield : cx.field .name = .ok name := by rw [Context.field, hsome]
  have hmissing : cx.field .moduleName = .error (.missingField .moduleName) := by
    rw [Context.field, hnone]
  simp only [Strategy.importedNameTypo, Strategy.of, hfield, hmissing]
  rfl

/-- No strategy for these eleven kinds misses a field of a message that a standard phrasing
accepts, whatever the symbols, the knowledge and the host. The strategy for a failed import misses
the module exactly if the message has one of the two old wordings, and no other field. -/
theorem missingField_standard (m : String) (symbols : Environment) (knowledge : Knowledge)
    (host : Host) :
    (∀ k ∈ [Kind.nameNotDefined, .unboundLocal, .attributeMissing, .importMissing,
        .unexpectedKeyword, .unsubscriptable, .notCallable, .unhashable, .fileNotFound,
        .isADirectory, .notADirectory],
      let fields := Grammar.standard.classify k m
      fields.isMatch → ∀ s ∈ Registry.standard.strategiesFor k, ∀ f,
        s.generate ⟨k, fields, symbols, knowledge, host⟩ ≠ .inapplicable (.missingField f)) ∧
    let fields := Grammar.standard.classify .cannotImportName m
    fields.isMatch → ∀ s ∈ Registry.standard.strategiesFor .cannotImportName, ∀ f,
      s.generate ⟨.cannotImportName, fields, symbols, knowledge, host⟩ =
          .inapplicable (.missingField f) ↔
        f = .moduleName ∧ (fields.entry = some "import_name.bare" ∨
          fields.entry = some "import_name.unquoted") := by
  constructor
  · intro k hk
    -- the fields are all that counts from here on, not how the grammar finds them
    have hread := exists_phrasing_of_isMatch (k := k) (m := m)
    generalize Grammar.standard.classify k m = read at hread ⊢
    intro fields hm s hs f heq
    obtain ⟨p, hp, rfl, hf⟩ := hread hm
    have hproblem : p.kind ≠ .syntaxProblem := fun h => absurd (h ▸ hk) (by decide)
    obtain ⟨himport, -⟩ := eq_of_missingField hp hf hs hproblem heq
    exact absurd (himport ▸ hk) (by decide)
  · have hread := exists_phrasing_of_isMatch (k := .cannotImportName) (m := m)
    generalize Grammar.standard.classify .cannotImportName m = read at hread ⊢
    intro fields hm s hs f
    obtain ⟨p, hp, hkind, hf⟩ := hread hm
    constructor
    · intro heq
      rw [← hkind] at hs
      exact (eq_of_missingField hp hf hs (by rw [hkind]; decide) heq).2
    · intro h
      obtain ⟨rfl, hentry⟩ := h
      rw [strategiesFor_cannotImportName] at hs
      obtain rfl := List.mem_singleton.1 hs
      exact generate_importedNameTypo_of_entry hp hf hentry

/-- A module that is missing, and an old wording that does not name the module. -/
theorem missingField_standard_import :
    let host := Host.ofVariables ⟨⟨.empty, []⟩⟩ []
    let missing : Fields := ⟨some "import.no_module", [(.moduleName, "foo.bar")]⟩
    let bare : Fields := ⟨some "import_name.bare", [(.name, "pi")]⟩
    Grammar.standard.classify .importMissing "No module named 'foo.bar'" = missing ∧
    Grammar.standard.classify .cannotImportName "cannot import name 'pi'" = bare ∧
    (∀ s ∈ Registry.standard.strategiesFor .importMissing, ∀ f,
      s.generate ⟨.importMissing, missing, .empty, .standard, host⟩ ≠
        .inapplicable (.missingField f)) ∧
    Strategy.importedNameTypo.generate ⟨.cannotImportName, bare, .empty, .standard, host⟩ =
      .inapplicable (.missingField .moduleName) := by
  intro host missing bare
  have hmissing :
      Grammar.standard.classify .importMissing "No module named 'foo.bar'" = missing := by
    rw [Grammar.classify_standard]
    decide +kernel
  have hbare : Grammar.standard.classify .cannotImportName "cannot import name 'pi'" = bare := by
    rw [Grammar.classify_standard]
    decide +kernel
  have hnone := (missingField_standard "No module named 'foo.bar'" .empty .standard host).1
    .importMissing (by decide)
  have hmodule := (missingField_standard "cannot import name 'pi'" .empty .standard host).2
  rw [hmissing] at hnone
  rw [hbare] at hmodule
  have hrun : Strategy.importedNameTypo ∈ Registry.standard.strategiesFor .cannotImportName := by
    rw [strategiesFor_cannotImportName]
    exact List.mem_singleton_self _
  exact ⟨hmissing, hbare, hnone rfl, (hmodule rfl _ hrun _).2 ⟨rfl, .inl rfl⟩⟩

end Engine

end ErrorHints
