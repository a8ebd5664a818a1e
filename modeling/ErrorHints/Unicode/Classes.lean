import ErrorHints.Unicode.AlphabeticRanges
import ErrorHints.Unicode.DecimalRanges
import ErrorHints.Unicode.NumberRanges
import ErrorHints.Unicode.WordRanges

/-!
# Character classes

The classes of characters that patterns and scans ask for, over all of Unicode:
word characters, decimal digits and white space, and for names of groups
alphabetic characters and numbers. ASCII is decided by comparison, the rest by
table.

Results:
* `isWord_of_isDigit`: every digit is a word character.
* `isWord_eq_false_of_isSpace`: no white space is a word character.
-/
namespace ErrorHints.Unicode

/-- Whether one of the ranges holds `n`; both ends belong to a range. -/
def inRanges (ranges : List (Nat × Nat)) (n : Nat) : Bool :=
  ranges.any fun r => r.1 ≤ n && n ≤ r.2

/-- An alphabetic character, a mark, a decimal digit, connector punctuation such
as `_`, or a joiner. -/
def isWord (c : Char) : Bool :=
  if c.toNat < 128 then c.isAlphanum || c = '_' else inRanges wordRanges c.toNat

/-- A decimal digit of any script. -/
def isDigit (c : Char) : Bool :=
  if c.toNat < 128 then c.isDigit else inRanges decimalRanges c.toNat

/-- An alphabetic character. -/
def isAlphabetic (c : Char) : Bool :=
  if c.toNat < 128 then c.isAlpha else inRanges alphabeticRanges c.toNat

/-- A decimal digit, a number letter or another number. -/
def isNumber (c : Char) : Bool :=
  if c.toNat < 128 then c.isDigit else inRanges numberRanges c.toNat

/-- Ranges of white space. -/
def spaceRanges : List (Nat × Nat) :=
  [(0x9, 0xd), (0x20, 0x20), (0x85, 0x85), (0xa0, 0xa0), (0x1680, 0x1680), (0x2000, 0x200a),
   (0x2028, 0x2029), (0x202f, 0x202f), (0x205f, 0x205f), (0x3000, 0x3000)]

/-- White space, line ends included. -/
def isSpace (c : Char) : Bool := inRanges spaceRanges c.toNat

/-! ## Relations between the classes -/

/-- Every range of `inner` lies inside one of `outer`. -/
def rangesWithin (inner outer : List (Nat × Nat)) : Bool :=
  inner.all fun r => outer.any fun s => s.1 ≤ r.1 && r.2 ≤ s.2

theorem inRanges_of_within {inner outer : List (Nat × Nat)} (h : rangesWithin inner outer) {n : Nat}
    (hn : inRanges inner n) : inRanges outer n := by
  simp only [inRanges, rangesWithin, List.any_eq_true, List.all_eq_true, Bool.and_eq_true,
    decide_eq_true_eq] at *
  obtain ⟨r, hr, h1, h2⟩ := hn
  obtain ⟨s, hs, h3, h4⟩ := h r hr
  exact ⟨s, hs, by omega, by omega⟩

/-- No range of `first` meets one of `second`. -/
def rangesApart (first second : List (Nat × Nat)) : Bool :=
  first.all fun r => second.all fun s => r.2 < s.1 || s.2 < r.1

theorem not_inRanges_of_apart {first second : List (Nat × Nat)} (h : rangesApart first second)
    {n : Nat} (hn : inRanges first n) : inRanges second n = false := by
  simp only [inRanges, rangesApart, List.any_eq_true, List.any_eq_false, List.all_eq_true,
    Bool.and_eq_true, Bool.or_eq_true, decide_eq_true_eq] at *
  obtain ⟨r, hr, h1, h2⟩ := hn
  intro s hs h3
  have := h r hr s hs
  omega

set_option maxRecDepth 100000 in
theorem decimals_within_words : rangesWithin decimalRanges wordRanges := by decide +kernel

set_option maxRecDepth 100000 in
theorem spaces_apart_words : rangesApart spaceRanges wordRanges := by decide +kernel

theorem isAlpha_eq (c : Char) : c.isAlpha =
    (decide (c.val ≥ 'A'.val ∧ c.val ≤ 'Z'.val) || c.val ≥ 'a'.val && c.val ≤ 'z'.val) := rfl

theorem isWord_of_isDigit {c : Char} (h : isDigit c) : isWord c := by
  unfold isDigit at h
  unfold isWord
  split
  · rename_i hc
    rw [if_pos hc] at h
    simp [Char.isAlphanum, h]
  · rename_i hc
    rw [if_neg hc] at h
    exact inRanges_of_within decimals_within_words h

theorem isWord_eq_false_of_isSpace {c : Char} (h : isSpace c) : isWord c = false := by
  unfold isWord
  split
  · have h' : c.toNat ≤ 0x20 := by
      simp only [isSpace, inRanges, spaceRanges, List.any_cons, List.any_nil, Bool.or_false,
        Bool.or_eq_true, Bool.and_eq_true, decide_eq_true_eq] at h
      omega
    have hn : c ≠ '_' := by rintro rfl; revert h'; decide
    have hv : c.val.toNat = c.toNat := rfl
    simp only [Char.isAlphanum, isAlpha_eq, Char.isDigit, hn,
      ge_iff_le, UInt32.le_iff_toNat_le, hv, decide_false, Bool.or_false, Bool.or_eq_false_iff,
      Bool.and_eq_false_iff, decide_eq_false_iff_not]
    have hA : 'A'.val.toNat = 65 := rfl
    have ha : 'a'.val.toNat = 97 := rfl
    have h0 : '0'.val.toNat = 48 := rfl
    omega
  · exact not_inRanges_of_apart spaces_apart_words h

end ErrorHints.Unicode
