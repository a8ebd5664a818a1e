import ErrorHints.KindIndex
import ErrorHints.Strategy.Curated
import ErrorHints.Strategy.FileTree
import ErrorHints.Strategy.Likeness
import ErrorHints.Strategy.Scope
import ErrorHints.Strategy.SourceCode

/-!
# Registries of strategies

A registry holds strategies in order of registration, each filed under every
kind it declares, once per declaration. A strategy that declares a kind twice
is run twice for it.

Results:
* `strategies_register`: a strategy goes to the end.
* `strategiesFor_ofStrategies`: the strategies of a kind are those that declare
  it, in order of registration and once per declaration.
-/
namespace ErrorHints

structure Registry where
  strategies : Array Strategy := #[]
  index : KindIndex := .empty

namespace Registry

/-- No strategies. -/
def empty : Registry := {}

/-- Add a strategy at the end, for each kind it declares. -/
def register (r : Registry) (s : Strategy) : Registry where
  strategies := r.strategies.push s
  index := s.kinds.foldl (fun index kind => index.add kind r.strategies.size) r.index

/-- The registry of some strategies, in order. -/
def ofStrategies (ss : List Strategy) : Registry := ss.foldl register empty

/-- The strategies for a kind, in order. -/
def strategiesFor (r : Registry) (k : Kind) : List Strategy :=
  (r.index.places k).filterMap (r.strategies[·]?)

def hasStrategiesFor (r : Registry) (k : Kind) : Bool := r.index.contains k

def strategyCount (r : Registry) : Nat := r.strategies.size

/-- The number of declarations of all strategies. -/
def mappingCount (r : Registry) : Nat :=
  Kind.all.foldl (fun n k => n + (r.index.places k).length) 0

/-- The registry in one line. -/
def summary (r : Registry) : String :=
  "StrategyRegistry \x7b strategy_count: " ++ toString r.strategyCount ++ ", kinds: [" ++
    ", ".intercalate ((Kind.all.filter r.hasStrategiesFor).map Kind.title) ++ "], .. \x7d"

/-! ## What the index gives back -/

theorem strategies_register (r : Registry) (s : Strategy) :
    (r.register s).strategies.toList = r.strategies.toList ++ [s] := by
  simp [register]

/-- Filing a place under kinds puts it at the end of each, once per mention. -/
theorem places_foldl_add (index : KindIndex) (kinds : List Kind) (place : Nat) (k : Kind) :
    (kinds.foldl (fun index kind => index.add kind place) index).places k =
      index.places k ++ List.replicate (kinds.count k) place := by
  induction kinds generalizing index with
  | nil => simp
  | cons kind kinds ih =>
    rw [List.foldl_cons, ih, KindIndex.places_add]
    by_cases h : kind = k
    · subst h
      simp only [if_true, List.append_assoc, List.singleton_append, List.count_cons_self]
      rw [List.replicate_succ]
    · simp [h]

/-- A registry whose index points into its strategies and gives those of each kind. -/
def Filed (r : Registry) : Prop :=
  ∀ k, (∀ i ∈ r.index.places k, i < r.strategies.size) ∧
    r.strategiesFor k = r.strategies.toList.flatMap fun s => List.replicate (s.kinds.count k) s

theorem filed_empty : empty.Filed := by
  intro k
  simp [empty, strategiesFor]

theorem filed_register {r : Registry} (h : r.Filed) (s : Strategy) : (r.register s).Filed := by
  intro k
  obtain ⟨hlt, heq⟩ := h k
  have hplaces : (r.register s).index.places k =
      r.index.places k ++ List.replicate (s.kinds.count k) r.strategies.size :=
    places_foldl_add r.index s.kinds r.strategies.size k
  constructor
  · intro i hi
    rw [hplaces, List.mem_append] at hi
    simp only [register, Array.size_push]
    rcases hi with hi | hi
    · exact Nat.lt_succ_of_lt (hlt i hi)
    · rw [(List.mem_replicate.1 hi).2]; exact Nat.lt_succ_self _
  · rw [strategies_register, List.flatMap_append, ← heq, strategiesFor, hplaces,
      List.filterMap_append]
    congr 1
    · exact KindIndex.filterMap_push _ _ s hlt
    · have : (r.register s).strategies[r.strategies.size]? = some s := by simp [register]
      simp [this]

theorem filed_ofStrategies (ss : List Strategy) : (ofStrategies ss).Filed := by
  have (ss : List Strategy) : ∀ r : Registry, r.Filed → (ss.foldl register r).Filed := by
    induction ss with
    | nil => exact fun _ h => h
    | cons s ss ih => exact fun r h => ih _ (filed_register h s)
  exact this ss empty filed_empty

theorem strategies_ofStrategies (ss : List Strategy) :
    (ofStrategies ss).strategies.toList = ss := by
  have (ss : List Strategy) :
      ∀ r : Registry, (ss.foldl register r).strategies.toList = r.strategies.toList ++ ss := by
    induction ss with
    | nil => simp
    | cons s ss ih => intro r; rw [List.foldl_cons, ih, strategies_register]; simp
  simpa [ofStrategies, empty] using this ss empty

theorem strategiesFor_ofStrategies (ss : List Strategy) (k : Kind) :
    (ofStrategies ss).strategiesFor k = ss.flatMap fun s => List.replicate (s.kinds.count k) s := by
  rw [(filed_ofStrategies ss k).2, strategies_ofStrategies]

theorem mem_strategiesFor_ofStrategies {ss : List Strategy} {k : Kind} {s : Strategy} :
    s ∈ (ofStrategies ss).strategiesFor k ↔ s ∈ ss ∧ k ∈ s.kinds := by
  rw [strategiesFor_ofStrategies, List.mem_flatMap]
  constructor
  · intro h
    obtain ⟨s', hs', hmem⟩ := h
    obtain ⟨hcount, rfl⟩ := List.mem_replicate.1 hmem
    exact ⟨hs', List.count_pos_iff.1 (Nat.pos_of_ne_zero hcount)⟩
  · intro h
    obtain ⟨hs, hk⟩ := h
    exact ⟨s, hs, List.mem_replicate.2 ⟨Nat.ne_of_gt (List.count_pos_iff.2 hk), rfl⟩⟩

end Registry

/-! ## The standard strategies -/

open Strategy in
/-- The standard strategies, in order of registration. -/
def standardStrategies : List Strategy :=
  [attributeOfKnownSymbol, standardModuleImport, unimportedModuleAttribute, globalDeclaration,
   nameTypo, keywordTypo, nameSpecialCase,
   builtinAsAttribute, removedAttribute, attributeSynonym, attributeTypo, attributeOnOtherSymbol,
   unexpectedKeyword, callInsteadOfSubscript, subscriptInsteadOfCall, hashableAlternative,
   renamedModule, moduleTypo, importedNameTypo,
   outdatedPrint, outdatedComparison, octalLiteral,
   footprintAlternative, expandedPath, directoryListing, parentDirectory]

/-- The registry of the standard strategies. -/
def Registry.standard : Registry := ofStrategies standardStrategies

end ErrorHints
