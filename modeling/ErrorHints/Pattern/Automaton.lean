import ErrorHints.Pattern.Basic

/-!
# Finding a pattern in a text

A pattern becomes an automaton. Threads walk through it side by side, one
character of the text at a time; the thread that stands first is the preferred
one. Between two characters every state is entered once: a thread that comes to
a state where one before it has been would only repeat its ways. So rounds that
read nothing come to an end, and the work for a character is bounded by the
number of states.

What is found is what the preferred thread of those that start earliest captured.

Results:
* `length_code`: a pattern takes up the states that `stateCount` says.
-/
namespace ErrorHints

namespace Automaton

/-- A state, with the states that follow it. -/
inductive State (ν : Type) where
  /-- Read a character of a set. -/
  | read (set : CharSet) (next : Nat)
  | goTo (next : Nat)
  /-- Go on at `first`, or else at `second`. -/
  | fork (first second : Nat)
  /-- Go on at a given place only. -/
  | check (anchor : Anchor) (next : Nat)
  /-- Begin a group. -/
  | enter (next : Nat)
  /-- End the group begun last and capture it. -/
  | leave (name : ν) (next : Nat)
  /-- The pattern is found. -/
  | accept
  deriving Repr

end Automaton

/-- The states of a pattern, numbered from the start state on. -/
abbrev Automaton (ν : Type) := Array (Automaton.State ν)

/-! ## The automaton of a pattern -/

namespace Pattern

open Automaton

variable {ν : Type}

/-- The number of states that a pattern takes up. -/
def stateCount : Pattern ν → Nat
  | text chars => chars.length + 1
  | one _ | place _ => 1
  | seq p q => p.stateCount + q.stateCount
  | alt p q => p.stateCount + q.stateCount + 1
  | repeated .atMostOne _ p | repeated .atLeastOne _ p => p.stateCount + 1
  | repeated .anyNumber _ p => p.stateCount + if p.readsSomething then 1 else 2
  | group _ p => p.stateCount + 2

/-- The states that read some characters, the first of them numbered `base`, and go to `next`. -/
def textCode : (chars : List Char) → (base next : Nat) → List (State ν)
  | [], _, next => [.goTo next]
  | c :: cs, base, next => .read (.single c) (base + 1) :: textCode cs (base + 1) next

/-- Another round at `again`, or else the way out. -/
def branch (eager : Bool) (again out : Nat) : State ν :=
  if eager then .fork again out else .fork out again

/-- The states of a pattern, the first of them numbered `base`, that go on at `next`.
Any number of rounds that read something is a loop. Of rounds that may read nothing it is
one round or more, or else none: in a loop a first round without a character would be cut
off before it is over. -/
def code : Pattern ν → (base next : Nat) → List (State ν)
  | text chars, base, next => textCode chars base next
  | one set, _, next => [.read set next]
  | place anchor, _, next => [.check anchor next]
  | seq p q, base, next =>
    p.code base (base + p.stateCount) ++ q.code (base + p.stateCount) next
  | alt p q, base, next =>
    .fork (base + 1) (base + 1 + p.stateCount) ::
      (p.code (base + 1) next ++ q.code (base + 1 + p.stateCount) next)
  | repeated .atMostOne eager p, base, next =>
    branch eager (base + 1) next :: p.code (base + 1) next
  | repeated .atLeastOne eager p, base, next =>
    p.code base (base + p.stateCount) ++ [branch eager base next]
  | repeated .anyNumber eager p, base, next =>
    branch eager (base + 1) next ::
      if p.readsSomething then p.code (base + 1) base
      else p.code (base + 1) (base + 1 + p.stateCount) ++ [branch eager (base + 1) next]
  | group name p, base, next =>
    .enter (base + 1) :: (p.code (base + 1) (base + 1 + p.stateCount) ++ [.leave name next])

theorem length_textCode (chars : List Char) (base next : Nat) :
    (textCode (ν := ν) chars base next).length = chars.length + 1 := by
  induction chars generalizing base with
  | nil => rfl
  | cons c cs ih => simp [textCode, ih]

theorem length_code (p : Pattern ν) (base next : Nat) :
    (p.code base next).length = p.stateCount := by
  induction p generalizing base next with
  | text chars => exact length_textCode chars base next
  | one _ | place _ => rfl
  | seq p q ihp ihq => simp [code, stateCount, ihp, ihq]
  | alt p q ihp ihq => simp [code, stateCount, ihp, ihq]
  | repeated rounds _ p ih =>
    cases rounds with
    | atMostOne | atLeastOne => simp [code, stateCount, ih]
    | anyNumber =>
      simp only [code, stateCount, List.length_cons]
      split <;> simp [ih]
  | group _ p ih => simp [code, stateCount, ih]

/-- The automaton of a pattern. -/
def automaton (p : Pattern ν) : Automaton ν := (p.code 0 p.stateCount ++ [State.accept]).toArray

end Pattern

/-! ## Threads -/

/-- A place in a text. -/
structure Spot where
  /-- Number of characters before it. -/
  before : Nat
  /-- The character before it. -/
  last : Option Char
  /-- The characters after it. -/
  after : List Char
  deriving Repr

namespace Spot

def isAfterWord (s : Spot) : Bool := s.last.any Unicode.isWord

def isBeforeWord (s : Spot) : Bool := s.after.head?.any Unicode.isWord

end Spot

def Anchor.holds : Anchor → Spot → Bool
  | textStart, s => s.before = 0
  | textEnd, s => s.after.isEmpty
  | wordEdge, s => s.isAfterWord != s.isBeforeWord
  | noWordEdge, s => s.isAfterWord == s.isBeforeWord
  | wordStart, s => !s.isAfterWord && s.isBeforeWord
  | wordEnd, s => s.isAfterWord && !s.isBeforeWord
  | afterNoWord, s => !s.isAfterWord
  | beforeNoWord, s => !s.isBeforeWord

namespace Automaton

variable {ν : Type}

/-- A way through the automaton. -/
structure Thread (ν : Type) where
  state : Nat
  /-- Where the open groups began, the innermost first. -/
  openings : List Spot := []
  /-- What was captured on the way, the latest first. -/
  captures : List (Capture ν) := []

/-- A thread at the start state. -/
def Thread.fresh : Thread ν := { state := 0 }

/-- End the group begun last. -/
def Thread.leave (t : Thread ν) (name : ν) (here : Spot) : Thread ν :=
  match t.openings with
  | [] => t
  | s :: openings =>
    { t with openings, captures := ⟨name, s.after, here.before - s.before⟩ :: t.captures }

/-- The threads that a thread goes on as without reading, the preferred one first. -/
def silent (a : Automaton ν) (here : Spot) (t : Thread ν) : List (Thread ν) :=
  match a[t.state]? with
  | some (.goTo next) => [{ t with state := next }]
  | some (.fork first second) => [{ t with state := first }, { t with state := second }]
  | some (.check anchor next) => if anchor.holds here then [{ t with state := next }] else []
  | some (.enter next) => [{ t with state := next, openings := here :: t.openings }]
  | some (.leave name next) => [{ t.leave name here with state := next }]
  | some (.read _ _) | some .accept | none => []

/-- The threads that come from `work` without reading, in order of preference. A state that
is marked in `entered` is not entered again. -/
def settle (a : Automaton ν) (here : Spot) :
    (fuel : Nat) → (entered : Array Bool) → (work : List (Thread ν)) → List (Thread ν)
  | 0, _, _ => []
  | _ + 1, _, [] => []
  | fuel + 1, entered, t :: work =>
    if entered[t.state]? = some false then
      t :: settle a here fuel (entered.setIfInBounds t.state true) (a.silent here t ++ work)
    else settle a here fuel entered work

/-- A thread that reads a character. -/
def advance? (a : Automaton ν) (c : Char) (t : Thread ν) : Option (Thread ν) :=
  match a[t.state]? with
  | some (.read set next) => if set.contains c then some { t with state := next } else none
  | _ => none

def accepts (a : Automaton ν) (t : Thread ν) : Bool :=
  match a[t.state]? with
  | some .accept => true
  | _ => false

/-- Settle the threads at a place. What the first one captured that has come to its end
is now the best; only the threads before it go on. -/
def step (a : Automaton ν) (best : Option (List (Capture ν))) (live : List (Thread ν))
    (here : Spot) : Option (List (Capture ν)) × List (Thread ν) :=
  let work := if best.isNone then live ++ [.fresh] else live
  let threads := a.settle here (work.length + 2 * a.size + 1) (.replicate a.size false) work
  (((threads.find? a.accepts).map Thread.captures).or best, threads.takeWhile (!a.accepts ·))

/-- Take threads through the rest of a text, `before` characters of which have been
read. `best` is what the preferred thread of those that have ended captured; all of `live`
are preferred to it. As long as none has ended, another thread starts at every place. -/
def run (a : Automaton ν) (best : Option (List (Capture ν))) (live : List (Thread ν)) (before : Nat)
    (last : Option Char) : List Char → Option (List (Capture ν))
  | [] => (a.step best live ⟨before, last, []⟩).1
  | c :: rest =>
    let (best, live) := a.step best live ⟨before, last, c :: rest⟩
    a.run best (live.filterMap (a.advance? c)) (before + 1) (some c) rest

end Automaton

namespace Pattern

variable {ν : Type}

/-- What is captured where the pattern is found in a text. -/
def captures? (p : Pattern ν) (text : List Char) : Option (List (Capture ν)) :=
  p.automaton.run none [] 0 none text

/-- Whether the pattern is found in a text. -/
def accepts (p : Pattern ν) (text : List Char) : Bool := (p.captures? text).isSome

end Pattern

end ErrorHints
