import ErrorHints.Symbols.Resolver
import ErrorHints.Symbols.Tier

/-!
# The environment of a failure

Everything visible where a failure happened: the tiers of bindings in order of
look-up, a resolver of modules, the value that failed, and the source line.
Each piece may be missing. A name bound in an earlier tier hides the same name
in a later one, but a look-up returns every binding, so hiding can be reported.

Results:
* `lookup_eq_nil_iff`: a look-up finds nothing exactly for unbound names.
* `mem_boundNames`: the bound names are the names of the bindings.
-/
namespace ErrorHints

structure Environment where
  /-- Tiers in order of look-up. Two tiers may have one level. -/
  tiers : List Tier := []
  resolver : Option Resolver := none
  /-- The value whose attribute, call or subscript failed. -/
  receiver : Option Value := none
  sourceLine : Option String := none

namespace Environment

/-- Nothing is known. -/
def empty : Environment := {}

/-- The bindings of a name, at most one from each tier. -/
def lookup (env : Environment) (name : String) : List Binding :=
  env.tiers.filterMap (·.binding? name)

/-- The binding of a name that hides the others. -/
def nearest? (env : Environment) (name : String) : Option Binding := (env.lookup name).head?

def isBound (env : Environment) (name : String) : Bool := env.tiers.any (·.contains name)

/-- Every binding of every tier. -/
def bindings (env : Environment) : List Binding := env.tiers.flatMap Tier.bindings

/-- Each bound name with the level of its nearest binding, in order of first appearance. -/
def boundNames (env : Environment) : List (String × Level) :=
  (distinctOn Binding.name env.bindings).map fun b => (b.name, b.level)

/-- A value of a given type: the failing value if it fits, else the nearest one. -/
def findByType (env : Environment) (typeName : String) : Option Value :=
  match env.receiver.filter (·.typeName == typeName) with
  | some value => some value
  | none => (env.bindings.find? (·.value.typeName == typeName)).map Binding.value

/-- The first tier of a level. -/
def tier? (env : Environment) (level : Level) : Option Tier := env.tiers.find? (·.level = level)

/-- The exports of a module, if there is a resolver and it knows them. -/
def exports? (env : Environment) (moduleName : String) : Option (List String) :=
  env.resolver.bind (·.exports? moduleName)

/-! ## How the views fit together -/

theorem binding?_isSome (t : Tier) (n : String) : (t.binding? n).isSome = t.contains n := by
  rw [Bool.eq_iff_iff, Tier.contains_iff, Tier.binding?, Option.isSome_map, Tier.get?_eq,
    Slots.get?_isSome_iff]

theorem lookup_eq_nil_iff (env : Environment) (n : String) :
    env.lookup n = [] ↔ env.isBound n = false := by
  simp only [lookup, List.filterMap_eq_nil_iff, isBound, List.any_eq_false, ← binding?_isSome]
  simp

theorem mem_boundNames (env : Environment) (n : String) :
    n ∈ env.boundNames.map Prod.fst ↔ n ∈ env.bindings.map Binding.name := by
  rw [boundNames, List.map_map]
  exact mem_map_distinctOn Binding.name env.bindings n

theorem nodup_boundNames (env : Environment) : (env.boundNames.map Prod.fst).Nodup := by
  rw [boundNames, List.map_map]
  exact nodup_distinctOn Binding.name env.bindings

end Environment

end ErrorHints
