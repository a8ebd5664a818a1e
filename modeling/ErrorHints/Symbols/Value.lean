import ErrorHints.Distinct

/-!
# Captured values

A value that was bound where the failure happened, seen from outside: the name
of its type, its attributes, and the parameters it declares if it is a function
with a known signature. Looking at a value runs none of its code.
-/
namespace ErrorHints

structure Value where
  /-- Name of the type, as the runtime prints it. -/
  typeName : String
  /-- Declared attributes, in a stable order. -/
  attributes : List String
  /-- Whether the value answers to an attribute. A value may answer to more
  than it declares. -/
  hasAttribute : String → Bool
  /-- Declared parameters, if the signature is known. -/
  parameters : Option (List String) := none
  /-- Whether the value can be called. If it does not say so by itself, its attributes do. -/
  isCallable : Bool := hasAttribute "__call__"

namespace Value

/-- A value that has just the attributes it declares. -/
def snapshot (typeName : String) (attributes : List String) (parameters : Option (List String)) :
    Value :=
  let names := Std.HashSet.ofList attributes
  { typeName, attributes := distinct attributes, hasAttribute := fun a => names.contains a,
    parameters }

theorem snapshot_hasAttribute (typeName : String) (attributes : List String)
    (parameters : Option (List String)) (a : String) :
    (snapshot typeName attributes parameters).hasAttribute a = true ↔
      a ∈ (snapshot typeName attributes parameters).attributes := by
  simp [snapshot, mem_distinct]

end Value

end ErrorHints
