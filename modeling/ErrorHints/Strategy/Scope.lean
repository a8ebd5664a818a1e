import ErrorHints.Strategy.Receiver

/-!
# Suggestions from what is in scope

What is bound where the failure happened, and what modules export, shows where
a missing name or attribute can be had, and how a value is meant to be used.
-/
namespace ErrorHints.Strategy

/-- Standard modules whose exports are looked at, at most. -/
def maxModuleProbes : Nat := 512

/-- Other symbols that are proposed, at most. -/
def maxOtherSymbols : Nat := 3

/-- `symbol.attr`, if the nearest binding of a symbol has the attribute or, failing
that, a binding hidden by it. -/
def attributeOf? (symbols : Environment) (attr symbol : String) : Option Suggestion :=
  match symbols.lookup symbol with
  | [] => none
  | nearest :: others =>
    let text := quoted (symbol ++ "." ++ attr)
    if nearest.value.hasAttribute attr then some (.plain text)
    else if others.any (·.value.hasAttribute attr) then
      some (.plain (text ++ " (hidden by " ++ nearest.level.tag ++ ")"))
    else none

/-- A name that is an attribute of something in scope. -/
def attributeOfKnownSymbol : Strategy :=
  .of "attribute-of-known-symbol" [.nameNotDefined] fun cx => do
    let name ← cx.field .name
    return cx.symbols.boundNames.filterMap fun (symbol, _) => attributeOf? cx.symbols name symbol

/-- The standard modules that are not bound and export a name, among the first that are not bound. -/
def unboundExporters (knowledge : Knowledge) (symbols : Environment) (name : String) : List String :=
  ((knowledge.modules.filter (!symbols.isBound ·)).take maxModuleProbes).filter fun m =>
    ((symbols.exports? m).getD []).contains name

/-- A name that a standard module exports which was not imported. -/
def unimportedModuleAttribute : Strategy :=
  .of "unimported-module-attribute" [.nameNotDefined] fun cx => do
    let name ← cx.field .name
    return (unboundExporters cx.knowledge cx.symbols name).map fun m =>
      .plain (quoted (m ++ "." ++ name) ++ " (not imported)")

/-- A local name that is also a global one. -/
def globalDeclaration : Strategy :=
  .of "global-declaration" [.unboundLocal] fun cx => do
    let name ← cx.field .name
    if (cx.symbols.tier? .globalNames).any (·.contains name) then
      return [.plain (quoted ("global " ++ name))]
    else return []

/-- An attribute that is a function of the runtime. -/
def builtinAsAttribute : Strategy :=
  .of "builtin-as-attribute" [.attributeMissing] fun cx => do
    let attr ← cx.field .attr
    if ((cx.symbols.tier? .builtinNames).bind (·.get? attr)).any (·.isCallable) then
      let typeName ← match (cx.fields.get? .typeName).or (cx.fields.get? .className) with
        | some typeName => pure typeName
        | none => pure (← cx.receiver).typeName
      return [.plain (quoted (attr ++ "(" ++ typeName ++ ")"))]
    else return []

/-- A symbol in scope, builtins aside, whose value is of another type and has the attribute. -/
def otherOwners (symbols : Environment) (attr typeName : String) : List String :=
  ((symbols.boundNames.filter (·.2 ≠ .builtinNames)).map Prod.fst).filter fun symbol =>
    (symbols.nearest? symbol).any fun b =>
      b.value.typeName != typeName && b.value.hasAttribute attr

/-- An attribute that symbols of other types have. -/
def attributeOnOtherSymbol : Strategy :=
  .of "attribute-on-other-symbol" [.attributeMissing] fun cx => do
    let attr ← cx.field .attr
    let typeName ← match cx.fields.get? .typeName with
      | some typeName => pure typeName
      | none => pure (← cx.receiver).typeName
    return ((otherOwners cx.symbols attr typeName).take maxOtherSymbols).map fun symbol =>
      .plain (quoted (symbol ++ "." ++ attr))

/-- A subscript on what is to be called. -/
def callInsteadOfSubscript : Strategy :=
  .of "call-instead-of-subscript" [.unsubscriptable] fun cx => do
    if (← cx.valueOfType).isCallable then return [.plain (quoted "function(value)")] else return []

/-- A call of what is to be subscripted. -/
def subscriptInsteadOfCall : Strategy :=
  .of "subscript-instead-of-call" [.notCallable] fun cx => do
    if (← cx.valueOfType).hasAttribute "__getitem__" then return [.plain (quoted "object[value]")]
    else return []

end ErrorHints.Strategy
