import ErrorHints.Pattern.CharSet
import ErrorHints.Unicode.Classes

/-!
# Sets given by tables

A table of ranges in order gives a set, and so the named classes of characters
become sets.

Results:
* `contains_ofRanges`: a table of ranges holds what lies in one of them.
* `contains_word`, `contains_digit`, `contains_space`: the named sets are the classes.
-/
namespace ErrorHints.CharSet

/-! ## Tables of ranges -/

/-- Whether the ranges are in order, with gaps between them, and end below `codePoints`. -/
def inOrder : List (Nat × Nat) → Bool
  | [] => true
  | [r] => r.1 ≤ r.2 && r.2 + 1 < codePoints
  | r :: s :: rest => r.1 ≤ r.2 && r.2 + 1 < s.1 && inOrder (s :: rest)

/-- Where membership in a table of ranges changes. -/
def tableBounds (ranges : List (Nat × Nat)) : List Nat := ranges.flatMap fun r => [r.1, r.2 + 1]

theorem tableBounds_spec {ranges : List (Nat × Nat)} (h : inOrder ranges) :
    (tableBounds ranges).Pairwise (· < ·) ∧
      (∀ r ∈ ranges.head?, ∀ n ∈ tableBounds ranges, r.1 ≤ n) ∧
      ∀ n, insideAfter false (tableBounds ranges) n = Unicode.inRanges ranges n := by
  induction ranges with
  | nil => exact ⟨List.Pairwise.nil, by simp, fun _ => rfl⟩
  | cons r rest ih =>
    have hr : r.1 ≤ r.2 ∧ (∀ s ∈ rest.head?, r.2 + 1 < s.1) ∧ inOrder rest := by
      cases rest with
      | nil => simp [inOrder] at h; simp [h, inOrder]
      | cons s rest => simp [inOrder, and_assoc] at h; simpa using h
    obtain ⟨hle, hgap, horder⟩ := hr
    obtain ⟨hpair, hfirst, hin⟩ := ih horder
    have habove : ∀ n ∈ tableBounds rest, r.2 + 1 < n := by
      cases rest with
      | nil => simp [tableBounds]
      | cons s rest =>
        intro n hn
        have h1 := hgap s (by simp)
        have h2 := hfirst s (by simp) n hn
        omega
    have hcons : tableBounds (r :: rest) = r.1 :: (r.2 + 1) :: tableBounds rest := rfl
    refine ⟨?_, ?_, fun n => ?_⟩
    · rw [hcons]
      refine List.pairwise_cons.2 ⟨fun n hn => ?_, List.pairwise_cons.2 ⟨habove, hpair⟩⟩
      rcases List.mem_cons.1 hn with h | h
      · omega
      · have := habove n h; omega
    · simp only [List.head?_cons, Option.mem_def, Option.some.injEq, forall_eq', hcons]
      intro n hn
      rcases List.mem_cons.1 hn with h | hn
      · omega
      · rcases List.mem_cons.1 hn with h | h
        · omega
        · have := habove n h; omega
    · rw [hcons, insideAfter, insideAfter]
      have hrest : Unicode.inRanges (r :: rest) n =
          (decide (r.1 ≤ n) && decide (n ≤ r.2) || Unicode.inRanges rest n) := rfl
      rw [hrest, ← hin n]
      split
      · rw [insideAfter_of_lt fun m hm => ?_]
        · simp; omega
        · have := habove m hm; omega
      · split
        · simp; omega
        · simp; omega

/-- The characters in one of the ranges of a table. -/
def ofRanges (ranges : List (Nat × Nat)) (h : inOrder ranges) : CharSet :=
  ⟨tableBounds ranges, (tableBounds_spec h).1⟩

theorem contains_ofRanges {ranges : List (Nat × Nat)} (h : inOrder ranges) (c : Char) :
    (ofRanges ranges h).contains c = Unicode.inRanges ranges c.toNat :=
  (tableBounds_spec h).2.2 _

/-! ## Named sets -/

/-- A decimal digit. -/
def digit : CharSet := ofRanges ((0x30, 0x39) :: Unicode.decimalRanges) (by decide +kernel)

/-- White space. -/
def space : CharSet := ofRanges Unicode.spaceRanges (by decide +kernel)

/-- Ranges of word characters in ASCII. -/
def asciiWordRanges : List (Nat × Nat) := [(0x30, 0x39), (0x41, 0x5a), (0x5f, 0x5f), (0x61, 0x7a)]

/-- A word character. -/
def word : CharSet := ofRanges (asciiWordRanges ++ Unicode.wordRanges) (by decide +kernel)

/-- A word character or one of a list. -/
def wordOr (cs : List Char) : CharSet := word.union (ofChars cs)

theorem contains_space (c : Char) : space.contains c = Unicode.isSpace c := contains_ofRanges _ c

/-- A table that starts beyond ASCII holds nothing of ASCII. -/
theorem inRanges_eq_false_of_ascii {ranges : List (Nat × Nat)}
    (h : Unicode.rangesApart [(0, 127)] ranges) {n : Nat} (hn : n < 128) :
    Unicode.inRanges ranges n = false :=
  Unicode.not_inRanges_of_apart h (by simp [Unicode.inRanges]; omega)

theorem contains_digit (c : Char) : digit.contains c = Unicode.isDigit c := by
  have hcons (n : Nat) : Unicode.inRanges ((0x30, 0x39) :: Unicode.decimalRanges) n =
      (decide (0x30 ≤ n) && decide (n ≤ 0x39) || Unicode.inRanges Unicode.decimalRanges n) := rfl
  have hv : c.val.toNat = c.toNat := rfl
  rw [digit, contains_ofRanges, hcons, Unicode.isDigit]
  split
  · rename_i hc
    rw [inRanges_eq_false_of_ascii (by decide +kernel) hc, Char.isDigit]
    simp only [Bool.or_false, ge_iff_le, UInt32.le_iff_toNat_le, hv, ← Bool.decide_and]
    congr 1
  · have : ¬ c.toNat ≤ 0x39 := by omega
    simp [this]

theorem contains_word (c : Char) : word.contains c = Unicode.isWord c := by
  have happend (n : Nat) : Unicode.inRanges (asciiWordRanges ++ Unicode.wordRanges) n =
      (Unicode.inRanges asciiWordRanges n || Unicode.inRanges Unicode.wordRanges n) := by
    simp [Unicode.inRanges]
  have hv : c.val.toNat = c.toNat := rfl
  have hA : 'A'.val.toNat = 65 := rfl
  have hZ : 'Z'.val.toNat = 90 := rfl
  have ha : 'a'.val.toNat = 97 := rfl
  have hz : 'z'.val.toNat = 122 := rfl
  have h0 : '0'.val.toNat = 48 := rfl
  have h9 : '9'.val.toNat = 57 := rfl
  have hu : c = '_' ↔ c.toNat = 95 := ⟨fun h => h ▸ rfl, fun h => Char.toNat_inj.1 h⟩
  rw [word, contains_ofRanges, happend, Unicode.isWord]
  split
  · rename_i hc
    have hbeyond : Unicode.rangesApart [(0, 127)] Unicode.wordRanges := by decide +kernel
    rw [inRanges_eq_false_of_ascii hbeyond hc, Bool.or_false, Bool.eq_iff_iff]
    simp only [Unicode.inRanges, asciiWordRanges, List.any_cons, List.any_nil, Bool.or_false,
      Bool.or_eq_true, Bool.and_eq_true, decide_eq_true_eq, Char.isAlphanum,
      Unicode.isAlpha_eq, Char.isDigit, ge_iff_le, UInt32.le_iff_toNat_le, hv, hu]
    omega
  · rename_i hc
    have : Unicode.inRanges asciiWordRanges c.toNat = false := by
      simp only [Unicode.inRanges, asciiWordRanges, List.any_cons, List.any_nil, Bool.or_false,
        Bool.or_eq_false_iff, Bool.and_eq_false_iff, decide_eq_false_iff_not]
      omega
    rw [this, Bool.false_or]

theorem contains_wordOr (cs : List Char) (c : Char) :
    (wordOr cs).contains c = (Unicode.isWord c || decide (c ∈ cs)) := by
  rw [wordOr, contains_union, contains_word, contains_ofChars]

end ErrorHints.CharSet
