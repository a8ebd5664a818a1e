import ErrorHints.DottedName
import ErrorHints.SourceLine
import ErrorHints.Strategy.Basic

/-!
# Suggestions from the source line

The line that failed shows spellings of older runtimes and calls that are known
to need too much.
-/
namespace ErrorHints.Strategy

/-- Phrasings of a syntax error that names no cause. -/
def invalidSyntaxEntries : List String := ["syntax.invalid"]

/-- Phrasings of a syntax error in a number. -/
def invalidNumberEntries : List String := ["syntax.invalid_token", "syntax.leading_zeros"]

/-- Whether the message has one of some phrasings. -/
def hasEntry (cx : Context) (entries : List String) : Bool :=
  cx.fields.entry.any entries.contains

/-- A statement that became a function, unless the runtime says so itself. -/
def outdatedPrint : Strategy :=
  .of "outdated-print" [.syntaxProblem] fun cx => do
    let func ← cx.field .func
    if (cx.fields.get? .hint).isSome then return []
    else return [.plain (quoted (func ++ "(...)"))]

/-- Whether `part` occurs in a text. -/
def occursIn (part : List Char) : List Char → Bool
  | [] => part.isEmpty
  | c :: cs => part.isPrefixOf (c :: cs) || occursIn part cs

/-- An operator that was removed. -/
def outdatedComparison : Strategy :=
  .of "outdated-comparison" [.syntaxProblem] fun cx =>
    let diamond := cx.symbols.sourceLine.any fun line => occursIn ['<', '>'] line.toList
    .ok (if hasEntry cx invalidSyntaxEntries && diamond then [.plain (quoted "!=")] else [])

/-- How an integer that was written with leading zeros may be meant: octal, if its
digits are, and decimal. -/
def integerSpellings (digits : List Char) : List Suggestion :=
  let decimal := .plain (quoted (String.ofList digits))
  if digits.all SourceLine.isOctalDigit then
    [.plain (quoted ("0o" ++ String.ofList digits)), decimal]
  else [decimal]

/-- Integers with leading zeros. -/
def octalLiteral : Strategy :=
  .of "octal-literal" [.syntaxProblem] fun cx =>
    .ok (
      match hasEntry cx invalidNumberEntries, cx.symbols.sourceLine with
      | true, some line => (SourceLine.zeroLedIntegers line).flatMap integerSpellings
      | _, _ => [])

/-- The texts for calls that a kind of failure is due to. -/
def costlyCalls (knowledge : Knowledge) : Kind → Option (Table String)
  | .outOfMemory => some knowledge.memoryAlternatives
  | .overflow => some knowledge.overflowAlternatives
  | _ => none

/-- The text for a callee, by its full name or by its last segment. -/
def alternativeTo? (table : Table String) (callee : String) : Option String :=
  (table[callee]?).or (table[DottedName.leaf callee]?)

/-- Calls that need too much memory or overflow. -/
def footprintAlternative : Strategy :=
  .of "footprint-alternative" [.outOfMemory, .overflow] fun cx =>
    .ok (
      match costlyCalls cx.knowledge cx.kind, cx.symbols.sourceLine with
      | some table, some line =>
        (distinct ((SourceLine.calledNames line).filterMap (alternativeTo? table))).map .plain
      | _, _ => [])

end ErrorHints.Strategy
