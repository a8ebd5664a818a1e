import ErrorHints.Pattern.Finds

/-!
# What a source line shows

A source line is searched for two things: integers that are written with leading zeros, and names
that are called.
-/
namespace ErrorHints.SourceLine

/-! ## Integers with leading zeros -/

/-- `(?:^|[^\w.])0+(\d+)\b`: zeros and then digits up to the end of a word, not in the middle of a
word and not behind a point. Part 1 is the digits; the zeros leave it one. -/
def zeroLed : Pattern Nat :=
  .all [.any [.place .textStart, .one (CharSet.wordOr ['.']).compl], .plus (.text ['0']),
    .group 1 (.plus (.one .digit)), .place .wordEdge]

/-- The integers that a line writes with leading zeros, without those. -/
def zeroLedIntegers (line : String) : List (List Char) :=
  (zeroLed.finds line.toList).filterMap (·.part? 1)

def isOctalDigit (c : Char) : Bool := '0' ≤ c && c ≤ '7'

/-! ## Called names -/

/-- Characters that a called name may start with: letters of ASCII and the underscore. -/
def nameStarts : CharSet :=
  (CharSet.range 'A' 'Z').union ((CharSet.single '_').union (CharSet.range 'a' 'z'))

/-- `([A-Za-z_][\w.]*)\s*\(`: a possibly dotted name, part 1, and an opening parenthesis behind it,
blanks aside. -/
def called : Pattern Nat :=
  .all [.group 1 (.seq (.one nameStarts) (.star (.one (.wordOr ['.'])))), .star (.one .space),
    .text ['(']]

/-- The names that a line calls, in order. -/
def calledNames (line : String) : List String :=
  ((called.finds line.toList).filterMap (·.part? 1)).map String.ofList

end ErrorHints.SourceLine
