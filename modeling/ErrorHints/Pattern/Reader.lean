import ErrorHints.Pattern.Footprint
import ErrorHints.Pattern.Joining
import ErrorHints.Pattern.SetReader

/-!
# Reading written patterns

The written form of a pattern: characters stand for themselves, `.` for any
character in a line, `^` and `$` for the ends of the text; `[…]` is a set;
`(…)`, `(?:…)` and `(?P<name>…)` group, `|` separates branches, and `*`, `+`, `?`
repeat what stands before them, as little as possible with a `?` after them.

The reader keeps the groups that are still open on a stack, each with the
branches and the parts read so far. A group without a name is read under no
name; it captures nothing in the end, but keeps what is in it together.

A pattern that is nested too deep or has too large a footprint is refused. So is
one with a counted repetition, a flag or a class by property: this form does not
have them.
-/
namespace ErrorHints.Pattern

/-- What has been read of a pattern: what it means, and how deep it is nested. -/
structure Part where
  pattern : Pattern (Option String)
  depth : Nat := 0

/-- Levels of nesting, at most. -/
def maxLevels : Nat := 250

namespace Part

/-- Several parts in a row, which are a level of their own. -/
def sequence : List Part → Part
  | [p] => p
  | ps =>
    ⟨join (ps.map pattern), if ps.isEmpty then 0 else (ps.map depth).foldl max 0 + 1⟩

/-- Several branches, which are a level of their own. -/
def choice : List Part → Part
  | [p] => p
  | ps => ⟨choose (ps.map pattern), (ps.map depth).foldl max 0 + 1⟩

end Part

/-! ## Groups -/

/-- How a group captures. -/
inductive GroupHead where
  | plain
  | capturing (name : Option String)

/-- A group that is still open. -/
structure OpenGroup where
  head : GroupHead := .plain
  /-- The branches before the current one, reversed. -/
  branches : List Part := []
  /-- The parts of the current branch, reversed. -/
  parts : List Part := []

namespace OpenGroup

/-- Add a part to the current branch. -/
def push (g : OpenGroup) (p : Part) : OpenGroup := { g with parts := p :: g.parts }

/-- End the current branch and begin the next one. -/
def branch (g : OpenGroup) : OpenGroup :=
  { g with branches := .sequence g.parts.reverse :: g.branches, parts := [] }

/-- What stands in the group. -/
def content (g : OpenGroup) : Part := .choice g.branch.branches.reverse

/-- The group as a part. -/
def close (g : OpenGroup) : Part :=
  let c := g.content
  match g.head with
  | .plain => ⟨c.pattern, c.depth + 1⟩
  | .capturing name => ⟨.group name c.pattern, c.depth + 1⟩

/-- Repeat the last part. -/
def repeatLast (g : OpenGroup) (r : Rounds) (eager : Bool) : Option OpenGroup :=
  match g.parts with
  | p :: parts => some { g with parts := ⟨rounds r eager p.pattern, p.depth + 1⟩ :: parts }
  | [] => none

end OpenGroup

/-- Whether `c` may stand in the name of a group, first or later. -/
def isNameChar (first : Bool) (c : Char) : Bool :=
  c = '_' || Unicode.isAlphabetic c ||
    (!first && (Unicode.isNumber c || c = '.' || c = '[' || c = ']'))

/-- The name of a group up to its closing angle. -/
def groupName? (cs : List Char) : Except ReadFault (String × List Char) :=
  let name := cs.takeWhile (· ≠ '>')
  match cs.drop name.length, name with
  | '>' :: rest, c :: later =>
    if isNameChar true c && later.all (isNameChar false) then .ok (String.ofList name, rest)
    else .error .badGroup
  | _, _ => .error .badGroup

/-- What follows an opening parenthesis. -/
def groupHead? : List Char → Except ReadFault (GroupHead × List Char)
  | '?' :: ':' :: rest => .ok (.plain, rest)
  | '?' :: 'P' :: '<' :: rest | '?' :: '<' :: rest =>
    match groupName? rest with
    | .ok (name, rest) => .ok (.capturing (some name), rest)
    | .error e => .error e
  | '?' :: _ => .error .badGroup
  | rest => .ok (.capturing none, rest)

/-! ## Patterns -/

/-- The part that an escape stands for. -/
def Escape.part : Escape → Part
  | char c => ⟨text [c], 0⟩
  | set s => ⟨oneOf s, 0⟩
  | place anchor => ⟨.place anchor, 0⟩

/-- How many rounds a character asks for. -/
def rounds? : Char → Option Rounds
  | '*' => some .anyNumber
  | '+' => some .atLeastOne
  | '?' => some .atMostOne
  | _ => none

/-- Read on with the innermost open group `g`, the groups `outer` around it and
the names `used` so far. -/
def readOn (fuel : Nat) (used : List String) (outer : List OpenGroup) (g : OpenGroup)
    (cs : List Char) : Except ReadFault Part :=
  match fuel with
  | 0 => .error .unclosedGroup
  | fuel + 1 =>
    match cs with
    | [] => if outer.isEmpty then .ok g.content else .error .unclosedGroup
    | '(' :: rest =>
      match groupHead? rest with
      | .error e => .error e
      | .ok (.capturing (some name), rest) =>
        if used.contains name then .error (.repeatedName name)
        else readOn fuel (name :: used) (g :: outer) { head := .capturing (some name) } rest
      | .ok (head, rest) => readOn fuel used (g :: outer) { head } rest
    | ')' :: rest =>
      match outer with
      | [] => .error .unopenedGroup
      | parent :: outer => readOn fuel used outer (parent.push g.close) rest
    | '|' :: rest => readOn fuel used outer g.branch rest
    | '[' :: rest =>
      match set? rest with
      | .error e => .error e
      | .ok (s, rest) => readOn fuel used outer (g.push ⟨oneOf s.set, s.depth⟩) rest
    | '\\' :: rest =>
      match escape? rest with
      | .error e => .error e
      | .ok (e, rest) => readOn fuel used outer (g.push e.part) rest
    | '.' :: rest => readOn fuel used outer (g.push (Escape.set .anyInLine).part) rest
    | '^' :: rest => readOn fuel used outer (g.push (Escape.place .textStart).part) rest
    | '$' :: rest => readOn fuel used outer (g.push (Escape.place .textEnd).part) rest
    | c :: rest =>
      match rounds? c with
      | some r =>
        let (eager, rest) := match rest with
          | '?' :: rest => (false, rest)
          | rest => (true, rest)
        match g.repeatLast r eager with
        | some g => readOn fuel used outer g rest
        | none => .error .nothingToRepeat
      | none =>
        if c = '\x7b' then .error (.unsupported c)
        else readOn fuel used outer (g.push (Escape.char c).part) rest

/-- Read a written pattern. Every step takes a character. -/
def ofText? (t : String) : Except ReadFault (Pattern (Option String)) :=
  match readOn (t.length + 1) [] [] {} t.toList with
  | .ok p =>
    if maxLevels < p.depth then .error .tooDeep
    else if p.pattern.fits then .ok p.pattern
    else .error .tooLarge
  | .error e => .error e

end ErrorHints.Pattern
