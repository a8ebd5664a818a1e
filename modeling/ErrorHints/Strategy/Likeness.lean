import ErrorHints.Similarity.CloseMatches
import ErrorHints.Strategy.Receiver

/-!
# Suggestions by likeness

A name that fails is often a misspelling of one that is known. These strategies
know different names: those bound in the environment, reserved words, the
attributes of the receiver, the parameters of the callee, modules and their
exports. Their candidates carry the score of the match.
-/
namespace ErrorHints.Strategy

open Similarity (closeMatches MatchBounds)

/-- The names close to `target`, best first, each shown by `write`. -/
def alike (target : String) (known : List String) (bounds : MatchBounds) (write : String → String) :
    List Suggestion :=
  (closeMatches target known bounds).map fun m => ⟨write m.text, some m.score⟩

/-- Bound names close to the failing one, each with the level of its nearest binding. -/
def boundNamesAlike (symbols : Environment) (name : String) : List Suggestion :=
  let bound := symbols.boundNames
  (closeMatches name (bound.map Prod.fst) .default).filterMap fun m =>
    (Slots.get? m.text bound).map fun level =>
      ⟨quoted m.text ++ " (" ++ level.tag ++ ")", some m.score⟩

/-- A misspelled variable. -/
def nameTypo : Strategy :=
  .of "name-typo" [.nameNotDefined, .unboundLocal] fun cx => do
    return boundNamesAlike cx.symbols (← cx.field .name)

/-- A misspelled reserved word. -/
def keywordTypo : Strategy :=
  .of "keyword-typo" [.nameNotDefined] fun cx => do
    return alike (← cx.field .name) cx.knowledge.reservedWords .default (quoted · ++ " (keyword)")

/-- A misspelled attribute of the receiver. -/
def attributeTypo : Strategy :=
  .of "attribute-typo" [.attributeMissing] fun cx => do
    let attr ← cx.field .attr
    return alike attr (← cx.receiver).attributes .default quoted

/-- A misspelled parameter of the callee. -/
def unexpectedKeyword : Strategy :=
  .of "unexpected-keyword" [.unexpectedKeyword] fun cx => do
    let arg ← cx.field .arg
    match cx.calleeParameters? with
    | some parameters => return alike arg parameters .default quoted
    | none => throw .noReceiver

/-- A misspelled module. The last segment of a dotted name is compared with what
its parent exports, any other name with the standard modules. -/
def moduleTypo : Strategy :=
  .of "module-typo" [.importMissing] fun cx => do
    let name ← cx.field .moduleName
    match DottedName.split? name with
    | none => return alike name cx.knowledge.modules .loose quoted
    | some (parent, leaf) =>
      match cx.symbols.exports? parent with
      | none => return []
      | some exports => return alike leaf exports .loose fun found => quoted (parent ++ "." ++ found)

/-- A misspelled name in an import from a module. -/
def importedNameTypo : Strategy :=
  .of "imported-name-typo" [.cannotImportName] fun cx => do
    let name ← cx.field .name
    let moduleName ← cx.field .moduleName
    match cx.symbols.exports? moduleName with
    | none => return []
    | some exports => return alike name exports .loose quoted

end ErrorHints.Strategy
