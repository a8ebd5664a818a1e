import ErrorHints.Pattern.CharSet.Table

/-!
# Patterns

A pattern describes texts and names some of their parts. A choice prefers its
first branch; a repetition prefers one more round, or, if it is reluctant, to
stop.
-/
namespace ErrorHints

/-- A place that a pattern may ask for. -/
inductive Anchor where
  | textStart | textEnd
  /-- Between a word character and another character or an end of the text. -/
  | wordEdge
  | noWordEdge
  /-- Before a word. -/
  | wordStart
  /-- After a word. -/
  | wordEnd
  /-- Not after a word character. -/
  | afterNoWord
  /-- Not before a word character. -/
  | beforeNoWord
  deriving DecidableEq, Repr

/-- How many rounds of a pattern are read. -/
inductive Rounds where
  | atMostOne | anyNumber | atLeastOne
  deriving DecidableEq, Repr

/-- A pattern; parts are captured under names of type `ν`. -/
inductive Pattern (ν : Type) where
  /-- The characters themselves. -/
  | text (chars : List Char)
  /-- One character of a set. -/
  | one (set : CharSet)
  /-- Nothing, at a given place. -/
  | place (anchor : Anchor)
  /-- One pattern, then the other. -/
  | seq (p q : Pattern ν)
  /-- One pattern or else the other. -/
  | alt (p q : Pattern ν)
  /-- Rounds of a pattern, the more the better if `eager`. -/
  | repeated (rounds : Rounds) (eager : Bool) (p : Pattern ν)
  /-- What `p` reads, captured. -/
  | group (name : ν) (p : Pattern ν)
  deriving DecidableEq, Repr

/-- A part of a text: `length` characters from the front of `start`. -/
structure Capture (ν : Type) where
  name : ν
  start : List Char
  length : Nat
  deriving Repr

/-- The captured characters. -/
def Capture.chars {ν : Type} (c : Capture ν) : List Char := c.start.take c.length

namespace Pattern

variable {ν : Type}

/-- The names of the groups, in the order in which the groups begin. -/
def groups : Pattern ν → List ν
  | text _ | one _ | place _ => []
  | seq p q => p.groups ++ q.groups
  | alt p q => p.groups ++ q.groups
  | repeated _ _ p => p.groups
  | group name p => name :: p.groups

/-- Whether all that the pattern reads has a character. -/
def readsSomething : Pattern ν → Bool
  | text chars => !chars.isEmpty
  | one _ => true
  | place _ => false
  | seq p q => p.readsSomething || q.readsSomething
  | alt p q => p.readsSomething && q.readsSomething
  | repeated .atLeastOne _ p => p.readsSomething
  | repeated _ _ _ => false
  | group _ p => p.readsSomething

/-! ## Derived patterns -/

/-- Nothing. -/
def empty : Pattern ν := text []

/-- The characters of a string. -/
def ofString (s : String) : Pattern ν := text s.toList

/-- All of the patterns, one after the other. -/
def all : List (Pattern ν) → Pattern ν
  | [] => empty
  | [p] => p
  | p :: ps => seq p (all ps)

/-- Any of the patterns, the first ones preferred. -/
def any : List (Pattern ν) → Pattern ν
  | [] => empty
  | [p] => p
  | p :: ps => alt p (any ps)

/-- The pattern, or else nothing. -/
def opt (p : Pattern ν) : Pattern ν := repeated .atMostOne true p

/-- One round or more. -/
def plus (p : Pattern ν) : Pattern ν := repeated .atLeastOne true p

/-- Any number of rounds. -/
def star (p : Pattern ν) : Pattern ν := repeated .anyNumber true p

/-- The pattern for a whole text. -/
def whole (p : Pattern ν) : Pattern ν := all [place .textStart, p, place .textEnd]

theorem groups_whole (p : Pattern ν) : p.whole.groups = p.groups := by
  simp [whole, all, groups]

end Pattern

end ErrorHints
