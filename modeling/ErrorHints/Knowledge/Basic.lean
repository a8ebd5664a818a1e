import ErrorHints.Distinct
import Std.Data.TreeMap

/-!
# Curated knowledge

Facts about a runtime that no snapshot of a failure shows: its standard modules
and reserved words, attributes that mean the same, what was renamed or removed,
and what to use instead of certain calls and types. Lists keep their order,
which is the order of the candidates drawn from them; tables are looked up by
key.

Results:
* `mem_synonymsOf`: the synonyms of an attribute are the other members of the
  sets that it belongs to.
-/
namespace ErrorHints

/-- Facts by name, in the order of the names. -/
abbrev Table (α : Type) := Std.TreeMap String α

/-- What to use in place of a removed attribute. -/
structure RemovedAttribute where
  /-- The replacement; `{type}` in it stands for the type of the receiver. -/
  replacement : String
  /-- The attribute a receiver needs for the replacement to make sense. -/
  requires : Option String := none
  deriving DecidableEq, Repr, Inhabited

/-- A text with each `{type}` in it, from left to right, replaced by `value`. -/
def fillType (value : List Char) : List Char → List Char
  | '\x7b' :: 't' :: 'y' :: 'p' :: 'e' :: '\x7d' :: rest => value ++ fillType value rest
  | c :: rest => c :: fillType value rest
  | [] => []

/-- The replacement for a receiver of a given type. -/
def RemovedAttribute.render (r : RemovedAttribute) (typeName : String) : String :=
  String.ofList (fillType typeName.toList r.replacement.toList)

structure Knowledge where
  /-- Standard modules, each once. -/
  modules : List String
  /-- Reserved words, each once. -/
  reservedWords : List String
  /-- Sets of attributes with one meaning; sets may overlap. -/
  synonymSets : List (List String)
  /-- Removed attributes and their replacements. -/
  removedAttributes : Table RemovedAttribute
  /-- Texts for names that are not typos but have an obvious meaning. -/
  specialCases : Table String
  /-- Present names of renamed modules. -/
  renamedModules : Table String
  /-- Texts for calls that need much memory, by callee. -/
  memoryAlternatives : Table String
  /-- Texts for calls that overflow, by callee. -/
  overflowAlternatives : Table String
  /-- Texts for types that cannot be hashed. -/
  hashableAlternatives : Table String

namespace Knowledge

def isModule (k : Knowledge) (name : String) : Bool := k.modules.contains name

def isReserved (k : Knowledge) (word : String) : Bool := k.reservedWords.contains word

/-- The other members of the sets that `attr` belongs to, each once, in the order of the sets. -/
def synonymsOf (k : Knowledge) (attr : String) : List String :=
  distinct ((k.synonymSets.filter (·.contains attr)).flatten.filter (· != attr))

theorem mem_synonymsOf (k : Knowledge) (attr other : String) :
    other ∈ k.synonymsOf attr ↔
      other ≠ attr ∧ ∃ set ∈ k.synonymSets, attr ∈ set ∧ other ∈ set := by
  simp only [synonymsOf, mem_distinct, List.mem_filter, List.mem_flatten, List.contains_iff_mem,
    bne_iff_ne, ne_eq]
  grind

theorem nodup_synonymsOf (k : Knowledge) (attr : String) : (k.synonymsOf attr).Nodup :=
  nodup_distinct _

end Knowledge

end ErrorHints
