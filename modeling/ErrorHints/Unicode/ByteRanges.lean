/-!
# Ranges of characters as bytes

In UTF-8 a character is a leading byte and up to three bytes that continue it; a
continuing byte holds a digit in base 64, the leading byte the digit before them.
A range of code points becomes a list of sequences of byte ranges, in ascending
order: any choice of a byte from each range of a sequence is a character in the
range.
-/
namespace ErrorHints.Unicode

/-- A range of numbers, both ends included. -/
structure Span where
  first : Nat
  last : Nat
  deriving DecidableEq, Repr

namespace Span

/-- The range moved up by `n`. -/
def shift (s : Span) (n : Nat) : Span := ⟨s.first + n, s.last + n⟩

/-- The numbers in both of two ranges, if there are any. -/
def inter? (s t : Span) : Option Span :=
  let first := max s.first t.first
  let last := min s.last t.last
  if first ≤ last then some ⟨first, last⟩ else none

end Span

/-! ## Digits -/

-- powers of naturals, whatever other powers are known
attribute [local instance (high)] instPowNat

/-- Any of some leading digits with any `count` digits after it. -/
def freeDigits (count : Nat) (lead : Span) : List (List Span) :=
  if lead.first ≤ lead.last then [lead :: List.replicate count ⟨0, 63⟩] else []

/-- The digits in base 64 of the numbers from `first` to `last`: a part at either end whose leading
digit comes with some of the digits after it, and between them leading digits that come
with all. -/
def digitRanges : (count first last : Nat) → List (List Span)
  | 0, first, last => [[⟨first, last⟩]]
  | count + 1, first, last =>
    let block := 64 ^ (count + 1)
    let lead := first / block
    let final := last / block
    if lead = final then (digitRanges count (first % block) (last % block)).map (⟨lead, lead⟩ :: ·)
    else
      let atFirst := first % block = 0
      let atLast := last % block = block - 1
      let start :=
        if atFirst then []
        else (digitRanges count (first % block) (block - 1)).map (⟨lead, lead⟩ :: ·)
      let stop :=
        if atLast then [] else (digitRanges count 0 (last % block)).map (⟨final, final⟩ :: ·)
      let middle := freeDigits (count + 1)
        ⟨if atFirst then lead else lead + 1, if atLast then final else final - 1⟩
      start ++ middle ++ stop

/-! ## Bytes -/

/-- Ranges of code points with as many continuing bytes each. The code points between the
third and the fourth are no characters. -/
def byLength : List (Span × Nat) :=
  [(⟨0, 0x7f⟩, 0), (⟨0x80, 0x7ff⟩, 1), (⟨0x800, 0xd7ff⟩, 2), (⟨0xe000, 0xffff⟩, 2),
   (⟨0x10000, 0x10ffff⟩, 3)]

/-- What the leading byte of a character holds beside its digit. -/
def leadMark : (count : Nat) → Nat
  | 0 => 0
  | 1 => 0xc0
  | 2 => 0xe0
  | _ => 0xf0

/-- The bytes that hold digits. -/
def marked (count : Nat) : List Span → List Span
  | [] => []
  | lead :: rest => lead.shift (leadMark count) :: rest.map (·.shift 0x80)

/-- The sequences of bytes for the characters of a range. -/
def byteRanges (range : Span) : List (List Span) :=
  byLength.flatMap fun (span, count) =>
    match range.inter? span with
    | some s => (digitRanges count s.first s.last).map (marked count)
    | none => []

end ErrorHints.Unicode
