/-!
# Memos

A memo remembers a number for a key, in a fixed number of slots. The fingerprint of
a key gives its slot, and a slot keeps what was put there last: a memo may forget,
but it tells nothing that was not put.
-/
namespace ErrorHints

/-- Numbers under keys, each with its key. -/
structure Memo where
  slots : Array (Option (List Nat × Nat))

namespace Memo

/-- The FNV-1a fingerprint of a key, number by number. -/
def fingerprint (key : List Nat) : UInt64 :=
  key.foldl (fun h n => (h ^^^ n.toUInt64) * 1099511628211) 14695981039346656037

/-- A memo of `size` slots in which nothing is remembered. -/
def empty (size : Nat) : Memo := ⟨Array.replicate size none⟩

def size (m : Memo) : Nat := m.slots.size

/-- The slot of a key. -/
def slot (m : Memo) (key : List Nat) : Nat := (fingerprint key % m.size.toUInt64).toNat

def find? (m : Memo) (key : List Nat) : Option Nat :=
  match m.slots[m.slot key]? with
  | some (some (known, n)) => if known = key then some n else none
  | _ => none

/-- Remember `n`; what was in the slot of the key is forgotten. -/
def put (m : Memo) (key : List Nat) (n : Nat) : Memo :=
  ⟨m.slots.setIfInBounds (m.slot key) (some (key, n))⟩

end Memo

end ErrorHints
