import ErrorHints.Hexadecimal
import ErrorHints.Pattern.Basic

/-!
# Reading escapes and sets

An escape is a backslash with what belongs to it: `\w` `\d` `\s` (and `\W` `\D`
`\S`) are the named classes, `\A` and `\z` the ends of the text, `\b` `\B` `\<` `\>`
places at words, `\n` `\t` and so on control characters, `\x41` `\u0041` `\x{41}`
characters by number; before punctuation the backslash takes its meaning away.

A set stands in brackets: characters, ranges, named classes and sets inside it,
all that are not in it after a `^`. `&&`, `--` and `~~` between two groups of items
are intersection, difference and symmetric difference, from left to right. The
reader keeps the sets that are still open on a stack.
-/
namespace ErrorHints.Pattern

/-- Why a written pattern is refused. -/
inductive ReadFault where
  | unclosedGroup
  | unopenedGroup
  | badGroup
  | repeatedName (name : String)
  | unclosedSet
  | badSetItem
  | badRange
  | nothingToRepeat
  | badEscape
  | tooDeep
  | tooLarge
  /-- A character that has a meaning outside this language. -/
  | unsupported (c : Char)
  deriving DecidableEq, Repr

/-- What is wrong, in words. -/
def ReadFault.message : ReadFault → String
  | unclosedGroup => "a group is not closed"
  | unopenedGroup => "a group is closed that was not opened"
  | badGroup => "a group does not begin in a known way"
  | repeatedName name => "two groups have the name `" ++ name ++ "`"
  | unclosedSet => "a set is not closed"
  | badSetItem => "a set has an item that does not belong there"
  | badRange => "a range ends before it begins"
  | nothingToRepeat => "there is nothing to repeat"
  | badEscape => "an escape stands for nothing"
  | tooDeep => "the pattern is nested too deep"
  | tooLarge => "the pattern is too large"
  | unsupported c => "`" ++ c.toString ++ "` has no meaning here"

/-! ## Escapes -/

/-- What an escape stands for. -/
inductive Escape where
  | char (c : Char)
  | set (s : CharSet)
  | place (anchor : Anchor)

/-- The character with a number. -/
def charOfNumber? (n : Nat) : Option Char := if n.isValidChar then some (Char.ofNat n) else none

/-- The character that hexadecimal digits stand for. -/
def charOfDigits? (digits rest : List Char) : Except ReadFault (Escape × List Char) :=
  match digits, (Hexadecimal.value? digits).bind charOfNumber? with
  | _ :: _, some c => .ok (.char c, rest)
  | _, _ => .error .badEscape

/-- A character by its number: `count` hexadecimal digits, or any digits in braces. -/
def numbered? (count : Nat) (cs : List Char) : Except ReadFault (Escape × List Char) :=
  match cs with
  | '\x7b' :: cs =>
    let digits := cs.takeWhile (· ≠ '\x7d')
    match cs.drop digits.length with
    | _ :: rest => charOfDigits? digits rest
    | [] => .error .badEscape
  | cs => if cs.length < count then .error .badEscape else charOfDigits? (cs.take count) (cs.drop count)

/-- What a backslash and `c` stand for, if nothing else belongs to it. -/
def simpleEscape? (c : Char) : Option Escape :=
  match c with
  | 'w' => some (.set .word)
  | 'd' => some (.set .digit)
  | 's' => some (.set .space)
  | 'W' => some (.set CharSet.word.compl)
  | 'D' => some (.set CharSet.digit.compl)
  | 'S' => some (.set CharSet.space.compl)
  | 'A' => some (.place .textStart)
  | 'z' => some (.place .textEnd)
  | 'b' => some (.place .wordEdge)
  | 'B' => some (.place .noWordEdge)
  | '<' => some (.place .wordStart)
  | '>' => some (.place .wordEnd)
  | 'n' => some (.char '\n')
  | 't' => some (.char '\t')
  | 'r' => some (.char '\r')
  | 'f' => some (.char '\x0c')
  | 'v' => some (.char '\x0b')
  | 'a' => some (.char '\x07')
  | _ => if c.toNat < 128 && !c.isAlphanum then some (.char c) else none

/-- A place at a word by its name, which stands in braces. -/
def namedPlace? (name : List Char) : Option Escape :=
  match String.ofList name with
  | "start" => some (.place .wordStart)
  | "end" => some (.place .wordEnd)
  | "start-half" => some (.place .afterNoWord)
  | "end-half" => some (.place .beforeNoWord)
  | _ => none

/-- An escape after its backslash. -/
def escape? : List Char → Except ReadFault (Escape × List Char)
  | 'x' :: rest => numbered? 2 rest
  | 'u' :: rest => numbered? 4 rest
  | 'U' :: rest => numbered? 8 rest
  | 'b' :: '\x7b' :: rest =>
    let name := rest.takeWhile fun c => c.isAlpha || c = '-'
    match name, rest.drop name.length, namedPlace? name with
    | [], _, _ => .ok (.place .wordEdge, '\x7b' :: rest)
    | _ :: _, '\x7d' :: rest, some e => .ok (e, rest)
    | _ :: _, _, _ => .error .badEscape
  | c :: rest =>
    match simpleEscape? c with
    | some e => .ok (e, rest)
    | none => .error .badEscape
  | [] => .error .badEscape

/-! ## Items of sets -/

/-- The ASCII characters in some ranges. -/
def asciiSet (ranges : List (Char × Char)) : CharSet :=
  ranges.foldr (fun r s => (CharSet.range r.1 r.2).union s) .empty

/-- The ASCII classes that have names of their own. -/
def asciiClass? : String → Option CharSet
  | "alnum" => some (asciiSet [('0', '9'), ('A', 'Z'), ('a', 'z')])
  | "alpha" => some (asciiSet [('A', 'Z'), ('a', 'z')])
  | "ascii" => some (asciiSet [('\x00', '\x7f')])
  | "blank" => some (asciiSet [('\t', '\t'), (' ', ' ')])
  | "cntrl" => some (asciiSet [('\x00', '\x1f'), ('\x7f', '\x7f')])
  | "digit" => some (asciiSet [('0', '9')])
  | "graph" => some (asciiSet [('!', '~')])
  | "lower" => some (asciiSet [('a', 'z')])
  | "print" => some (asciiSet [(' ', '~')])
  | "punct" => some (asciiSet [('!', '/'), (':', '@'), ('[', '\x60'), ('\x7b', '~')])
  | "space" => some (asciiSet [('\t', '\r'), (' ', ' ')])
  | "upper" => some (asciiSet [('A', 'Z')])
  | "word" => some (asciiSet [('0', '9'), ('A', 'Z'), ('_', '_'), ('a', 'z')])
  | "xdigit" => some (asciiSet [('0', '9'), ('A', 'F'), ('a', 'f')])
  | _ => none

/-- A named ASCII class after its opening bracket, such as the rest of `[:alpha:]`. -/
def namedClass? : List Char → Option (CharSet × List Char)
  | ':' :: cs =>
    let (negated, cs) := match cs with
      | '^' :: cs => (true, cs)
      | cs => (false, cs)
    let name := cs.takeWhile (· ≠ ':')
    match asciiClass? (String.ofList name), cs.drop name.length with
    | some s, ':' :: ']' :: rest => some (if negated then s.compl else s, rest)
    | _, _ => none
  | _ => none

/-- One item, escaped or not. -/
def setItem? : List Char → Except ReadFault (Escape × List Char)
  | '\\' :: rest => escape? rest
  | c :: rest => .ok (.char c, rest)
  | [] => .error .unclosedSet

/-- An item that stands for itself, or a range if a hyphen and another item follow. -/
def setRange? (cs : List Char) : Except ReadFault (CharSet × List Char) := do
  let (first, rest) ← setItem? cs
  let alone : Except ReadFault (CharSet × List Char) :=
    match first with
    | .char c => .ok (.single c, rest)
    | .set s => .ok (s, rest)
    | .place _ => .error .badSetItem
  match rest with
  | '-' :: ']' :: _ | '-' :: '-' :: _ => alone
  | '-' :: after =>
    let (last, rest) ← setItem? after
    match first, last with
    | .char lo, .char hi => if lo ≤ hi then .ok (.range lo hi, rest) else .error .badRange
    | _, _ => .error .badSetItem
  | _ => alone

/-! ## Sets -/

/-- What has been read of a set: its characters, and how deep it is nested. -/
structure NestedSet where
  set : CharSet
  depth : Nat := 0

/-- A set that is still open. -/
structure OpenSet where
  negated : Bool := false
  /-- What stands before the last operator, and the operator. -/
  left : Option (NestedSet × (CharSet → CharSet → CharSet)) := none
  /-- The items after it. -/
  items : List NestedSet := []

namespace OpenSet

def push (s : OpenSet) (item : NestedSet) : OpenSet := { s with items := item :: s.items }

/-- What has been read so far, without the negation. Several items are a level of their
own, and so is every operator. -/
def content (s : OpenSet) : NestedSet :=
  let deepest := (s.items.map (·.depth)).foldl max 0
  let right : NestedSet :=
    { set := (s.items.map (·.set)).foldr CharSet.union .empty
      depth := if s.items.length ≤ 1 then deepest else deepest + 1 }
  match s.left with
  | none => right
  | some (left, op) => ⟨op left.set right.set, max left.depth right.depth + 1⟩

/-- Go on after an operator. -/
def operator (s : OpenSet) (op : CharSet → CharSet → CharSet) : OpenSet :=
  { s with left := some (s.content, op), items := [] }

/-- The set as a whole. -/
def close (s : OpenSet) : NestedSet :=
  let c := s.content
  ⟨if s.negated then c.set.compl else c.set, c.depth + 1⟩

end OpenSet

/-- The start of a set after its bracket: a `^`, hyphens, and if there are none a closing
bracket that stands for itself. -/
def openSet (cs : List Char) : OpenSet × List Char :=
  let (negated, cs) := match cs with
    | '^' :: cs => (true, cs)
    | cs => (false, cs)
  let hyphens := cs.takeWhile (· = '-')
  match hyphens, cs with
  | [], ']' :: cs => ({ negated, items := [⟨.single ']', 0⟩] }, cs)
  | _, _ => ({ negated, items := hyphens.map fun c => ⟨.single c, 0⟩ }, cs.drop hyphens.length)

/-- Read on in the innermost open set `s` with the sets `outer` around it. -/
def readSet (fuel : Nat) (outer : List OpenSet) (s : OpenSet) (cs : List Char) :
    Except ReadFault (NestedSet × List Char) :=
  match fuel with
  | 0 => .error .unclosedSet
  | fuel + 1 =>
    match cs with
    | [] => .error .unclosedSet
    | '[' :: rest =>
      match namedClass? rest with
      | some (set, rest) => readSet fuel outer (s.push ⟨set, 0⟩) rest
      | none =>
        let (inner, rest) := openSet rest
        readSet fuel (s :: outer) inner rest
    | ']' :: rest =>
      match outer with
      | [] => .ok (s.close, rest)
      | parent :: outer => readSet fuel outer (parent.push s.close) rest
    | '&' :: '&' :: rest => readSet fuel outer (s.operator .inter) rest
    | '-' :: '-' :: rest => readSet fuel outer (s.operator .diff) rest
    | '~' :: '~' :: rest => readSet fuel outer (s.operator .symmDiff) rest
    | cs =>
      match setRange? cs with
      | .ok (set, rest) => readSet fuel outer (s.push ⟨set, 0⟩) rest
      | .error e => .error e

/-- A set after its opening bracket. Every step takes a character. -/
def set? (cs : List Char) : Except ReadFault (NestedSet × List Char) :=
  let (s, rest) := openSet cs
  readSet (rest.length + 1) [] s rest

end ErrorHints.Pattern
