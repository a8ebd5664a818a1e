import ErrorHints.Strategy.Receiver

/-!
# Suggestions from curated knowledge

Some failures have an answer that can be looked up: a standard module to
import, a name or module that has a successor, an attribute that goes by
another name, a type to use in place of another.
-/
namespace ErrorHints.Strategy

/-- A name that is a standard module. -/
def standardModuleImport : Strategy :=
  .of "standard-module-import" [.nameNotDefined] fun cx => do
    let name ← cx.field .name
    if cx.knowledge.isModule name && !cx.symbols.isBound name then
      return [.plain ("to import " ++ name ++ " first")]
    else return []

/-- A name that many expect to exist. -/
def nameSpecialCase : Strategy :=
  .of "name-special-case" [.nameNotDefined] fun cx => do
    let name ← cx.field .name
    return (cx.knowledge.specialCases[name]?.map Suggestion.plain).toList

/-- An attribute that newer runtimes removed, if its replacement suits the receiver. -/
def removedAttribute : Strategy :=
  .of "removed-attribute" [.attributeMissing] fun cx => do
    let attr ← cx.field .attr
    match cx.knowledge.removedAttributes[attr]? with
    | none => return []
    | some removed =>
      let receiver ← cx.receiver
      if removed.requires.all receiver.has && !receiver.has attr then
        return [.plain (quoted (removed.render receiver.typeName) ++ " (" ++ attr ++ " is removed)")]
      else return []

/-- An attribute that the receiver has under another name. -/
def attributeSynonym : Strategy :=
  .of "attribute-synonym" [.attributeMissing] fun cx => do
    let attr ← cx.field .attr
    match cx.knowledge.synonymsOf attr with
    | [] => return []
    | synonyms =>
      let receiver ← cx.receiver
      return (synonyms.filter receiver.has).map fun s => .plain (quoted s)

/-- A type that cannot be a key. -/
def hashableAlternative : Strategy :=
  .of "hashable-alternative" [.unhashable] fun cx => do
    let typeName ← cx.field .typeName
    return (cx.knowledge.hashableAlternatives[typeName]?.map Suggestion.plain).toList

/-- A module that was renamed. -/
def renamedModule : Strategy :=
  .of "renamed-module" [.importMissing] fun cx => do
    let name ← cx.field .moduleName
    return (cx.knowledge.renamedModules[name]?.map fun now => Suggestion.plain (quoted now)).toList

end ErrorHints.Strategy
