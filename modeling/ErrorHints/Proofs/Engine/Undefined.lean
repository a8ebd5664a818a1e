import ErrorHints.Proofs.Engine.Sources
import ErrorHints.Proofs.Symbols.Views

/-!
# What is suggested for an undefined name

What is suggested for a name that is not defined rests on what was bound where the failure
happened: on attributes of bound symbols, also of such that are hidden, on standard modules that
are not bound, on what those export, and on bound names that are alike. Each of these is said here
of the environment itself, in terms of its bindings, and not of how a strategy goes through it:
nothing is proposed that is not there, and nothing is left out.

Results:
* `Strategy.candidates_attributeOfKnownSymbol`, `candidates_standardModuleImport`,
  `candidates_unimportedModuleAttribute`, `of_mem_candidates_nameTypo`: strategy by strategy.
* `Engine.suggest_nameNotDefined`: all of them, among what is suggested.
-/
namespace ErrorHints

/-- Whether some binding of a symbol has an attribute, be it hidden or not. -/
def Environment.exposes (symbols : Environment) (symbol attr : String) : Bool :=
  symbols.bindings.any fun b => b.name = symbol && b.value.hasAttribute attr

theorem Environment.exposes_eq_any_lookup (symbols : Environment) (symbol attr : String) :
    symbols.exposes symbol attr = (symbols.lookup symbol).any (·.value.hasAttribute attr) := by
  rw [exposes, lookup_eq_filter, List.any_filter]

theorem Environment.isBound_eq_false_iff (symbols : Environment) (n : String) :
    symbols.isBound n = false ↔ ∀ t ∈ symbols.tiers, n ∉ t.slots.keys := by
  rw [isBound, List.any_eq_false]
  simp only [Tier.contains_iff]

namespace Strategy

variable {cx : Context} {name : String}

/-! ## Attributes of bound symbols -/

/-- How an attribute of a bound symbol is written: plainly if the nearest binding of the symbol
has it, else with the level that hides it. -/
def attributeText (symbols : Environment) (attr : String) (symbol : String × Level) : String :=
  if (symbols.nearest? symbol.1).any (·.value.hasAttribute attr) then
    quoted (symbol.1 ++ "." ++ attr)
  else quoted (symbol.1 ++ "." ++ attr) ++ " (hidden by " ++ symbol.2.tag ++ ")"

theorem attributeOf?_eq {symbols : Environment} {symbol : String × Level}
    (h : symbol ∈ symbols.boundNames) (attr : String) :
    attributeOf? symbols attr symbol.1 =
      if symbols.exposes symbol.1 attr then some (.plain (attributeText symbols attr symbol))
      else none := by
  obtain ⟨symbol, level⟩ := symbol
  obtain ⟨nearest, hnearest, rfl⟩ := (symbols.mem_boundNames_iff symbol level).1 h
  obtain ⟨others, hlookup⟩ := List.head?_eq_some_iff.1 hnearest
  rw [attributeOf?, attributeText, symbols.exposes_eq_any_lookup, hnearest, hlookup]
  cases hhas : nearest.value.hasAttribute attr <;> simp [hhas]

theorem candidates_attributeOfKnownSymbol (h : cx.fields.get? .name = some name) :
    (attributeOfKnownSymbol.generate cx).candidates =
      (cx.symbols.boundNames.filter fun symbol => cx.symbols.exposes symbol.1 name).map
        fun symbol => ⟨attributeText cx.symbols name symbol, "attribute-of-known-symbol", none⟩ := by
  have hfound : cx.symbols.boundNames.filterMap
        (fun symbol => attributeOf? cx.symbols name symbol.1) =
      (cx.symbols.boundNames.filter fun symbol => cx.symbols.exposes symbol.1 name).map
        fun symbol => .plain (attributeText cx.symbols name symbol) := by
    rw [← List.filterMap_eq_filter, List.map_filterMap]
    refine List.filterMap_congr fun symbol hsymbol => ?_
    rw [attributeOf?_eq hsymbol name, Option.guard]
    split <;> rfl
  refine (candidates_of_field h).trans ?_
  show (cx.symbols.boundNames.filterMap fun symbol => attributeOf? cx.symbols name symbol.1).map
    (·.toCandidate "attribute-of-known-symbol") = _
  rw [hfound, List.map_map]
  rfl

/-! ## Standard modules -/

theorem candidates_standardModuleImport (h : cx.fields.get? .name = some name) :
    (standardModuleImport.generate cx).candidates =
      if name ∈ cx.knowledge.modules ∧ ∀ t ∈ cx.symbols.tiers, name ∉ t.slots.keys then
        [⟨"to import " ++ name ++ " first", "standard-module-import", none⟩]
      else [] := by
  have hcond : (cx.knowledge.isModule name && !cx.symbols.isBound name) = true ↔
      name ∈ cx.knowledge.modules ∧ ∀ t ∈ cx.symbols.tiers, name ∉ t.slots.keys := by
    rw [Bool.and_eq_true, Bool.not_eq_true', Environment.isBound_eq_false_iff, Knowledge.isModule,
      List.contains_iff_mem]
  refine (candidates_of_field h).trans ?_
  by_cases hmodule : name ∈ cx.knowledge.modules ∧ ∀ t ∈ cx.symbols.tiers, name ∉ t.slots.keys
  · rw [if_pos (hcond.2 hmodule), if_pos hmodule]
    rfl
  · rw [if_neg (mt hcond.1 hmodule), if_neg hmodule]
    rfl

theorem candidates_unimportedModuleAttribute (h : cx.fields.get? .name = some name) :
    (unimportedModuleAttribute.generate cx).candidates =
      (((cx.knowledge.modules.filter fun m => ∀ t ∈ cx.symbols.tiers, m ∉ t.slots.keys).take
        maxModuleProbes).filter fun m => (cx.symbols.exports? m).any (·.contains name)).map
        fun m => ⟨quoted (m ++ "." ++ name) ++ " (not imported)", "unimported-module-attribute",
          none⟩ := by
  have hunbound (m : String) :
      (!cx.symbols.isBound m) = decide (∀ t ∈ cx.symbols.tiers, m ∉ t.slots.keys) := by
    rw [Bool.eq_iff_iff, Bool.not_eq_true', decide_eq_true_iff, Environment.isBound_eq_false_iff]
  have hexports (m : String) : ((cx.symbols.exports? m).getD []).contains name =
      (cx.symbols.exports? m).any (·.contains name) := by
    cases cx.symbols.exports? m <;> rfl
  refine (candidates_of_field h).trans ?_
  show ((unboundExporters cx.knowledge cx.symbols name).map _).map _ = _
  rw [unboundExporters, List.map_map]
  simp only [hunbound, hexports]
  rfl

/-! ## Names that are alike -/

theorem of_mem_candidates_nameTypo (h : cx.fields.get? .name = some name) {c : Candidate}
    (hc : c ∈ (nameTypo.generate cx).candidates) :
    ∃ n b, n ≠ name ∧ cx.symbols.nearest? n = some b ∧
      c.text = quoted n ++ " (" ++ b.level.tag ++ ")" := by
  have hcandidates : (nameTypo.generate cx).candidates =
      (boundNamesAlike cx.symbols name).map (·.toCandidate "name-typo") := candidates_of_field h
  rw [hcandidates] at hc
  obtain ⟨s, hs, rfl⟩ := List.mem_map.1 hc
  obtain ⟨m, hm, hlevel⟩ := List.mem_filterMap.1 hs
  obtain ⟨level, hget, rfl⟩ := Option.map_eq_some_iff.1 hlevel
  have hbound : (m.text, level) ∈ cx.symbols.boundNames :=
    (Slots.get?_eq_some_iff cx.symbols.nodup_boundNames).1 hget
  obtain ⟨b, hnearest, rfl⟩ := (cx.symbols.mem_boundNames_iff m.text level).1 hbound
  exact ⟨m.text, b, (Similarity.of_mem_closeMatches hm).2, hnearest, rfl⟩

end Strategy

/-! ## All suggestions -/

namespace Engine

/-- What the standard strategies suggest for an undefined name, whatever is bound and whatever is
known.

* Of the bound names, in their order and each once: those of which some binding has the name as an
  attribute; written plainly if the nearest binding has it, else with the level of the nearest
  binding, which is the level that the bound name is listed with.
* The name itself, if it is a standard module and bound in no tier.
* Of the first 512 standard modules that are bound in no tier, in their order: those that are
  known to export the name.
* Names that are alike: each is bound, is not the name itself, and comes with the level of its
  nearest binding. -/
theorem suggest_nameNotDefined (e : Engine) (he : e.registry = .standard) (fields : Fields)
    (name : String) (hname : fields.get? .name = some name) (symbols : Environment) (host : Host) :
    let found (source : String) :=
      (e.suggest .nameNotDefined fields symbols host).filter (·.source = source)
    found "attribute-of-known-symbol" =
      ((symbols.boundNames.filter fun (symbol, _) => symbols.exposes symbol name).map
        fun (symbol, level) =>
          { text :=
              if (symbols.nearest? symbol).any (·.value.hasAttribute name) then
                quoted (symbol ++ "." ++ name)
              else quoted (symbol ++ "." ++ name) ++ " (hidden by " ++ level.tag ++ ")"
            source := "attribute-of-known-symbol" }) ∧
    (symbols.boundNames.map Prod.fst).Nodup ∧
    (∀ symbol level, (symbol, level) ∈ symbols.boundNames ↔
      ∃ b, symbols.nearest? symbol = some b ∧ b.level = level) ∧
    found "standard-module-import" =
      (if name ∈ e.knowledge.modules ∧ ∀ t ∈ symbols.tiers, name ∉ t.slots.keys then
        [{ text := "to import " ++ name ++ " first", source := "standard-module-import" }]
      else []) ∧
    found "unimported-module-attribute" =
      (((e.knowledge.modules.filter fun m => ∀ t ∈ symbols.tiers, m ∉ t.slots.keys).take
        512).filter fun m => (symbols.exports? m).any (·.contains name)).map
        (fun m =>
          { text := quoted (m ++ "." ++ name) ++ " (not imported)"
            source := "unimported-module-attribute" }) ∧
    ∀ c ∈ found "name-typo", ∃ n b, n ≠ name ∧ symbols.nearest? n = some b ∧
      c.text = quoted n ++ " (" ++ b.level.tag ++ ")" := by
  intro found
  have hfound {s : Strategy} (hs : s ∈ standardStrategies) (hk : .nameNotDefined ∈ s.kinds) :
      found s.name = (s.generate (e.context .nameNotDefined fields symbols host)).candidates :=
    filter_source_suggest he hs hk fields symbols host
  refine ⟨?_, symbols.nodup_boundNames, symbols.mem_boundNames_iff, ?_, ?_, fun c hc => ?_⟩
  · exact (hfound (by simp [standardStrategies]) (by decide)).trans
      (Strategy.candidates_attributeOfKnownSymbol hname)
  · exact (hfound (by simp [standardStrategies]) (by decide)).trans
      (Strategy.candidates_standardModuleImport hname)
  · exact (hfound (by simp [standardStrategies]) (by decide)).trans
      (Strategy.candidates_unimportedModuleAttribute hname)
  · have hsource : found Strategy.nameTypo.name = _ :=
      hfound (by simp [standardStrategies]) (by decide)
    exact Strategy.of_mem_candidates_nameTypo hname (hsource ▸ hc)

/-- A symbol of two tiers whose attribute is hidden, and a standard module that exports the name. -/
theorem suggest_nameNotDefined_hidden :
    let number : Value := { typeName := "int", attributes := [], hasAttribute := fun _ => false }
    let options : Value :=
      { typeName := "Options", attributes := ["debug"], hasAttribute := (· == "debug") }
    let symbols : Environment :=
      { tiers := [(Tier.empty .localNames).bind "config" number,
                  (Tier.empty .globalNames).bind "config" options]
        resolver := some ⟨fun m => if m = "logging" then some ["debug"] else none⟩ }
    let fields : Fields := ⟨some "name.not_defined", [(.name, "debug")]⟩
    let found := fun source => (standard.suggest .nameNotDefined fields symbols
      (.ofVariables ⟨⟨.empty, []⟩⟩ [])).filter (·.source = source)
    fields.get? .name = some "debug" ∧
      (found "attribute-of-known-symbol").map Candidate.text =
        ["'config.debug' (hidden by local)"] ∧
      found "standard-module-import" = [] ∧
      (found "unimported-module-attribute").map Candidate.text =
        ["'logging.debug' (not imported)"] := by
  intro number options symbols fields found
  have hslots : ∀ t ∈ symbols.tiers, t.slots.keys = ["config"] := by
    simp [symbols, Tier.slots_bind_empty, Slots.keys]
  have hbindings : symbols.bindings =
      [⟨"config", .localNames, number⟩, ⟨"config", .globalNames, options⟩] := by
    simp only [symbols, Environment.bindings, Tier.bindings, Tier.slots_bind_empty,
      Tier.level_bind, List.flatMap_cons, List.flatMap_nil, List.map_cons, List.map_nil]
    rfl
  have hbound : symbols.boundNames = [("config", .localNames)] := by
    rw [Environment.boundNames, hbindings, distinctOn_cons]
    rfl
  have hnearest : symbols.nearest? "config" = some ⟨"config", .localNames, number⟩ := by
    rw [Environment.nearest?_eq_find?, hbindings]
    rfl
  have hexposed : symbols.exposes "config" "debug" = true := by
    unfold Environment.exposes
    rw [hbindings]
    rfl
  have hunbound : ∀ m ∈ Knowledge.standard.modules, ∀ t ∈ symbols.tiers, m ∉ t.slots.keys := by
    intro m hm t ht
    rw [hslots t ht, List.mem_singleton]
    rintro rfl
    exact absurd hm (by decide)
  obtain ⟨hattributes, -, -, himport, hexported, -⟩ :=
    suggest_nameNotDefined standard rfl fields "debug" rfl symbols (.ofVariables ⟨⟨.empty, []⟩⟩ [])
  refine ⟨rfl, ?_, ?_, ?_⟩
  · refine (congrArg (List.map Candidate.text) hattributes).trans ?_
    have hfiltered : (symbols.boundNames.filter fun (symbol, _) => symbols.exposes symbol "debug") =
        [("config", .localNames)] := by
      rw [hbound]
      exact List.filter_cons_of_pos hexposed
    simp only [hfiltered, List.map_cons, List.map_nil, hnearest]
    decide
  · refine himport.trans (if_neg ?_)
    rintro ⟨hmodule, -⟩
    exact absurd hmodule (by decide)
  · refine (congrArg (List.map Candidate.text) hexported).trans ?_
    have hall : (Knowledge.standard.modules.filter fun m => ∀ t ∈ symbols.tiers, m ∉ t.slots.keys) =
        Knowledge.standard.modules :=
      List.filter_eq_self.2 fun m hm => decide_eq_true (hunbound m hm)
    rw [show standard.knowledge = Knowledge.standard from rfl, hall]
    decide

end Engine

end ErrorHints
