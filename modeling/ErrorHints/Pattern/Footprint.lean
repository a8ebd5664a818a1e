import ErrorHints.Pattern.Basic
import ErrorHints.Pattern.Memo
import ErrorHints.Unicode.ByteRanges

/-!
# The footprint of a pattern

How large a pattern becomes when it is laid out for texts in UTF-8, one state per
byte. A pattern is laid out twice, for reading forwards and for reading backwards.
What each construct takes:

* a text: a state for each byte;
* a choice: a fork before its branches and a state after them; a choice of texts is
  a tree of their bytes instead;
* a repetition: a fork, and a state after it if no round need be read;
* a group: a state where it begins and one where it ends, forwards only;
* a set within ASCII: a state before it and one with an arrow for each range;
* any other set: forwards the states for its sequences of byte ranges, equal ones
  shared from the last byte on; backwards one state for each byte range, shared from
  the leading byte on, with a fork over the sequences.

Which states are shared is a matter of a memo, so a state that has been forgotten is
laid out again.
-/
namespace ErrorHints

open Unicode

/-- What has been laid out so far. -/
structure Footprint where
  states : Nat := 0
  bytes : Nat := 0
  deriving DecidableEq, Repr

namespace Footprint

/-- Bytes that a footprint may have, at most. -/
def limit : Nat := 10 * 1024 * 1024

/-- Bytes for a state with at most one way on. -/
def stateSize : Nat := 32

/-- Bytes more for each way on from a fork. -/
def waySize : Nat := 4

/-- Bytes more for each arrow of a state with several of them. -/
def arrowSize : Nat := 8

/-- Some states with at most one way on. -/
def plain (count : Nat) (f : Footprint) : Footprint :=
  ⟨f.states + count, f.bytes + count * stateSize⟩

def fork (ways : Nat) (f : Footprint) : Footprint :=
  ⟨f.states + 1, f.bytes + stateSize + ways * waySize⟩

/-- A state with an arrow for each of `count` byte ranges. -/
def arrows (count : Nat) (f : Footprint) : Footprint :=
  ⟨f.states + 1, f.bytes + stateSize + count * arrowSize⟩

/-! ## Sets -/

/-- A layout in which states are shared: the footprint so far, and which state is the one
for a key. -/
structure Sharing where
  footprint : Footprint
  memo : Memo

/-- A layout in which no state is known, with a memo of `slots` slots. -/
def Sharing.start (slots : Nat) (f : Footprint) : Sharing := ⟨f, .empty slots⟩

/-- The number of the state for a key, which is laid out by `add` if it is not known. -/
def Sharing.state (s : Sharing) (key : List Nat) (add : Footprint → Footprint) : Nat × Sharing :=
  match s.memo.find? key with
  | some n => (n, s)
  | none =>
    let n := s.footprint.states
    (n, ⟨add s.footprint, s.memo.put key n⟩)

/-- Neighbouring sequences that begin alike, without what they begin with. -/
def byFirst : List (List Span) → List (Span × List (List Span))
  | [] => []
  | [] :: rest => byFirst rest
  | (first :: tail) :: rest =>
    match byFirst rest with
    | (other, tails) :: groups =>
      if first = other then (first, tail :: tails) :: groups
      else (first, [tail]) :: (other, tails) :: groups
    | [] => [(first, [tail])]

/-- The state from which some sequences of at most `length` byte ranges are read; they go
on at `next`. What follows a byte is laid out before the state that reads it. -/
def readingForwards (next : Nat) :
    (length : Nat) → (sequences : List (List Span)) → Sharing → Nat × Sharing
  | 0, _, s => (next, s)
  | length + 1, sequences, s =>
    match byFirst sequences with
    | [] => (next, s)
    | groups =>
      let (key, s) := groups.foldl
        (fun (key, s) (first, tails) =>
          let (follower, s) := readingForwards next length tails s
          (key ++ [first.first, first.last, follower], s))
        ([], s)
      s.state key (arrows groups.length)

/-- Read a sequence of byte ranges from its end; `next` comes after its first byte. -/
def readingBackwards (next : Nat) (s : Sharing) : (sequence : List Span) → Sharing
  | [] => s
  | range :: rest =>
    let reader := s.state [next, range.first, range.last] (plain 1)
    readingBackwards reader.1 reader.2 rest

/-- Which way a text is read. -/
inductive Direction where
  | forwards | backwards
  deriving DecidableEq, Repr

/-- The code points of a set, range by range. -/
def spans : List Nat → List Span
  | [] => []
  | [first] => [⟨first, CharSet.codePoints - 1⟩]
  | first :: stop :: rest => ⟨first, stop - 1⟩ :: spans rest

/-- A set of characters. When the limit has been passed, no more is counted. -/
def oneOf (d : Direction) (set : CharSet) (f : Footprint) : Footprint :=
  if limit < f.bytes then f
  else
    let sequences := (spans set.bounds).flatMap byteRanges
    if sequences.all fun sequence => sequence.length = 1 && sequence.all (·.last < 0x80) then
      (f.plain 1).arrows sequences.length
    else
      match d with
      | .forwards => (readingForwards f.states 4 sequences (.start 10000 (f.plain 1))).2.footprint
      | .backwards =>
        (sequences.foldl (readingBackwards (f.states + 1))
          (.start 1000 ((f.fork sequences.length).plain 1))).footprint

/-! ## Choices -/

/-- The runs of words between the empty ones. -/
def runs (words : List (List UInt8)) : List (List (List UInt8)) :=
  (words.splitBy (·.isEmpty == ·.isEmpty)).filter (·.any (!·.isEmpty))

/-- The words that begin with a byte, without it. -/
def after (byte : UInt8) (words : List (List UInt8)) : List (List UInt8) :=
  words.filterMap fun
    | first :: rest => if first = byte then some rest else none
    | [] => none

/-- A tree of words of at most `length` bytes. Words of which one ends where others go on
are told apart there by a fork, which has a way for every end and one for the words
between two ends. Ends before all other words count as one. -/
def tree : (length : Nat) → (words : List (List UInt8)) → Footprint → Footprint
  | 0, _, f => f
  | length + 1, words, f =>
    if words.all List.isEmpty then f
    else
      let later := words.dropWhile List.isEmpty
      let ends := min 1 (words.length - later.length) + later.countP List.isEmpty
      (runs later).foldl
        (fun f run =>
          let bytes := (run.filterMap List.head?).eraseDups
          let f := if bytes.length = 1 then f.plain 1 else f.arrows bytes.length
          bytes.foldl (fun f byte => tree length (after byte run) f) f)
        (f.fork ((runs later).length + ends))

/-- A branch of a choice. -/
inductive Branch where
  | text (chars : List Char)
  /-- How anything else is laid out. -/
  | other (add : Footprint → Footprint)

namespace Branch

def bytesOf (chars : List Char) : List UInt8 := chars.flatMap String.utf8EncodeChar

/-- A branch by itself; no text at all is a state, too. -/
def alone : Branch → Footprint → Footprint
  | text chars, f => f.plain (max 1 (bytesOf chars).length)
  | other add, f => add f

/-- The bytes of a text that is not empty, in the order in which they are read. -/
def word? (d : Direction) : Branch → Option (List UInt8)
  | text [] => none
  | text chars =>
    match d with
    | .forwards => some (bytesOf chars)
    | .backwards => some (bytesOf chars).reverse
  | other _ => none

/-- Some branches, of which one is read. The fork stands after the first two. -/
def together (d : Direction) (bs : List Branch) (f : Footprint) : Footprint :=
  match bs with
  | [] => f
  | [b] => b.alone f
  | first :: second :: more =>
    match bs.mapM (word? d) with
    | some words => tree (words.foldl (max · ·.length) 0 + 1) words (f.plain 1)
    | none =>
      more.foldl (fun f b => b.alone f)
        ((((second.alone (first.alone f)).fork bs.length).plain 1))

end Branch

end Footprint

/-! ## Patterns -/

namespace Pattern

open Footprint (Direction Branch)

variable {ν : Type}

/-- How the branches of a pattern are laid out. -/
def layout (d : Direction) : Pattern ν → List Branch
  | text chars => [.text chars]
  | one set => [.other (Footprint.oneOf d set)]
  | place _ => [.other (Footprint.plain 1)]
  | seq p q =>
    let p := Branch.together d (p.layout d)
    let q := Branch.together d (q.layout d)
    match d with
    | .forwards => [.other fun f => q (p f)]
    | .backwards => [.other fun f => p (q f)]
  | alt p q => p.layout d ++ q.layout d
  | repeated rounds _ p =>
    let add := Branch.together d (p.layout d)
    match rounds with
    | .atMostOne => [.other fun f => (add (f.fork 2)).plain 1]
    | .atLeastOne => [.other fun f => (add f).fork 2]
    | .anyNumber =>
      if p.readsSomething then [.other fun f => add (f.fork 2)]
      else [.other fun f => (((add f).fork 2).fork 2).plain 1]
  | group _ p =>
    let add := Branch.together d (p.layout d)
    match d with
    | .forwards => [.other fun f => (add (f.plain 1)).plain 1]
    | .backwards => [.other add]

/-- The footprint of a pattern. Before it comes the state from which it is looked for, and
after it the one where it has been found; forwards, what it reads is a group. -/
def footprint (d : Direction) (p : Pattern ν) : Footprint :=
  let add := Branch.together d (p.layout d)
  match d with
  | .forwards => (add (Footprint.plain 2 {})).plain 2
  | .backwards => (add (Footprint.plain 1 {})).plain 1

/-- Whether the pattern is within the limit, whichever way it is read. -/
def fits (p : Pattern ν) : Bool :=
  (p.footprint .forwards).bytes ≤ Footprint.limit && (p.footprint .backwards).bytes ≤ Footprint.limit

end Pattern

end ErrorHints
