import ErrorHints.Rounding

/-!
# Scores

A score is the share `2·M / T` of characters that two texts have in common,
as the nearest binary64 number (ties to even). It is kept as the bit pattern
of that number: the patterns of non-negative numbers are ordered as the
numbers are, so comparing scores compares naturals.

Results:
* `ofCounts_mono`: of two counts over one total the larger scores no less.
* `ofCounts_eq_one_iff`: only two texts that have everything in common score 1.
-/
namespace ErrorHints

/-- A non-negative binary64 number, by its bit pattern. -/
structure Score where
  bits : Nat
  deriving DecidableEq, Repr, Inhabited

-- powers of naturals, whatever other powers are known
attribute [local instance (high)] instPowNat

namespace Score

instance : LE Score := ⟨fun a b => a.bits ≤ b.bits⟩
instance : LT Score := ⟨fun a b => a.bits < b.bits⟩
instance (a b : Score) : Decidable (a ≤ b) := inferInstanceAs (Decidable (a.bits ≤ b.bits))
instance (a b : Score) : Decidable (a < b) := inferInstanceAs (Decidable (a.bits < b.bits))

theorem le_def (a b : Score) : a ≤ b ↔ a.bits ≤ b.bits := Iff.rfl
theorem lt_def (a b : Score) : a < b ↔ a.bits < b.bits := Iff.rfl
theorem bits_inj {a b : Score} : a.bits = b.bits ↔ a = b := by cases a; cases b; simp

/-- The number 0. -/
def zero : Score := ⟨0⟩

/-- The number 1. -/
def one : Score := ⟨1023 * 2 ^ (52 : Nat)⟩

/-- The least `s` with `total ≤ n · 2^s`, for positive `n`. -/
def leadingShift (n total : Nat) : Nat :=
  let s := total.log2 - n.log2
  if n * 2 ^ s < total then s + 1 else s

/-- The number nearest to `2·matched / total`, for `2·matched ≤ total`; two
empty texts are equal. With `s` the leading shift, the quotient lies between
`2^-s` and `2^(1-s)`, so its exponent field is `1023 - s` and its 53 digits,
the leading one included, are those of the quotient times `2^(s + 52)`. From
`s = 1022` on the exponent stays and leading digits go. -/
def ofCounts (matched total : Nat) : Score :=
  if total = 0 then one
  else if matched = 0 then zero
  else
    let s := min 1022 (leadingShift (2 * matched) total)
    ⟨(1022 - s) * 2 ^ (52 : Nat) + roundedQuotient (2 * matched * 2 ^ (s + 52)) total⟩

theorem total_le_shifted {n : Nat} (total : Nat) (hn : n ≠ 0) : total ≤ n * 2 ^ leadingShift n total := by
  by_cases ht : total = 0
  · simp [ht]
  have h1 := Nat.log2_self_le hn
  have h2 := Nat.lt_log2_self (n := total)
  simp only [leadingShift]
  split
  · rename_i hlt
    have hle : n.log2 ≤ total.log2 := by
      rcases Nat.lt_or_ge total.log2 n.log2 with hc | hc
      · exfalso
        have hs : total.log2 - n.log2 = 0 := by omega
        rw [hs, Nat.pow_zero, Nat.mul_one] at hlt
        have := Nat.pow_le_pow_right (n := 2) (by decide) (show total.log2 + 1 ≤ n.log2 by omega)
        omega
      · exact hc
    have e : 2 ^ n.log2 * 2 ^ (total.log2 - n.log2 + 1) = 2 ^ (total.log2 + 1) := by
      rw [← Nat.pow_add]; congr 1; omega
    have := Nat.mul_le_mul_right (2 ^ (total.log2 - n.log2 + 1)) h1
    omega
  · omega

theorem shifted_lt_double {n total : Nat} (ht : total ≠ 0) (h : n ≤ total) :
    n * 2 ^ leadingShift n total < 2 * total := by
  have h1 := Nat.lt_log2_self (n := n)
  have h2 := Nat.log2_self_le ht
  have hpos : 0 < 2 ^ (total.log2 - n.log2) := Nat.pos_of_ne_zero (by simp)
  simp only [leadingShift]
  split
  · rename_i hlt
    have := Nat.mul_assoc n (2 ^ (total.log2 - n.log2)) 2
    rw [Nat.pow_succ]; omega
  · by_cases hle : n.log2 ≤ total.log2
    · have e : 2 ^ (n.log2 + 1) * 2 ^ (total.log2 - n.log2) = 2 * 2 ^ total.log2 := by
        rw [← Nat.pow_add, ← Nat.pow_succ']; congr 1; omega
      have := Nat.mul_lt_mul_of_lt_of_le h1 (Nat.le_refl (2 ^ (total.log2 - n.log2))) hpos
      omega
    · have hs : total.log2 - n.log2 = 0 := by omega
      rw [hs, Nat.pow_zero, Nat.mul_one]; omega

theorem leadingShift_anti {n m total : Nat} (hn : n ≠ 0) (hnm : n ≤ m) (hm : m ≤ total) :
    leadingShift m total ≤ leadingShift n total := by
  rcases Nat.lt_or_ge (leadingShift n total) (leadingShift m total) with hc | hc
  · exfalso
    have h1 := total_le_shifted total hn
    have h2 := shifted_lt_double (show total ≠ 0 by omega) hm
    have h3 := Nat.pow_le_pow_right (n := 2) (by decide) hc
    rw [Nat.pow_succ] at h3
    have h4 := Nat.mul_le_mul hnm h3
    have h5 : n * (2 ^ leadingShift n total * 2) = n * 2 ^ leadingShift n total * 2 := by
      rw [Nat.mul_assoc]
    omega
  · exact hc

/-- As long as the shift is not larger than the leading one, the digits do not grow by a place. -/
theorem roundedQuotient_shifted_le {n s total : Nat} (ht : total ≠ 0) (h : n ≤ total)
    (hs : s ≤ leadingShift n total) : roundedQuotient (n * 2 ^ (s + 52)) total ≤ 2 ^ (53 : Nat) := by
  have h1 := shifted_lt_double ht h
  have h2 : 2 ^ s ≤ 2 ^ leadingShift n total := Nat.pow_le_pow_right (by decide) hs
  have h3 := Nat.mul_le_mul_left n h2
  rw [← roundedQuotient_mul (Nat.pos_of_ne_zero ht) (2 ^ 53)]
  refine roundedQuotient_mono total ?_
  rw [Nat.pow_add, ← Nat.mul_assoc, show (2 : Nat) ^ 53 * total = 2 * total * 2 ^ 52 by omega]
  exact Nat.mul_le_mul_right _ (by omega)

theorem ofCounts_mono {matched matched' total : Nat} (h : matched ≤ matched')
    (h' : 2 * matched' ≤ total) : ofCounts matched total ≤ ofCounts matched' total := by
  by_cases ht : total = 0
  · simp [ofCounts, ht, le_def]
  by_cases h0 : matched = 0
  · simp [ofCounts, ht, h0, le_def, zero]
  have h0' : matched' ≠ 0 := by omega
  have hanti := leadingShift_anti (show 2 * matched ≠ 0 by omega) (show 2 * matched ≤ 2 * matched' by omega) h'
  simp only [ofCounts, ht, h0, h0', if_false, le_def]
  generalize hs : min 1022 (leadingShift (2 * matched) total) = s
  generalize hs' : min 1022 (leadingShift (2 * matched') total) = s'
  have hle : s' ≤ s := by omega
  rcases Nat.lt_or_eq_of_le hle with hlt | rfl
  · have hu : roundedQuotient (2 * matched * 2 ^ (s + 52)) total ≤ 2 ^ 53 :=
      roundedQuotient_shifted_le ht (by omega) (by omega)
    have hl : 2 ^ 52 ≤ roundedQuotient (2 * matched' * 2 ^ (s' + 52)) total := by
      have h1 := total_le_shifted total (show 2 * matched' ≠ 0 by omega)
      rw [show leadingShift (2 * matched') total = s' by omega] at h1
      rw [← roundedQuotient_mul (Nat.pos_of_ne_zero ht) (2 ^ 52)]
      refine roundedQuotient_mono total ?_
      rw [Nat.pow_add, ← Nat.mul_assoc, Nat.mul_comm (2 ^ 52)]
      exact Nat.mul_le_mul_right _ h1
    have : s ≤ 1022 := by omega
    omega
  · have := roundedQuotient_mono total
      (Nat.mul_le_mul_right (2 ^ (s' + 52)) (show 2 * matched ≤ 2 * matched' by omega))
    omega

/-- Two texts that have everything in common have the score 1. -/
theorem ofCounts_eq_one {matched total : Nat} (h : 2 * matched = total) :
    ofCounts matched total = one := by
  subst h
  by_cases h0 : matched = 0
  · simp [ofCounts, h0]
  have hpos : 0 < 2 * matched := by omega
  have hshift : leadingShift (2 * matched) (2 * matched) = 0 := by simp [leadingShift]
  have hdigits : roundedQuotient (2 * matched * 2 ^ 52) (2 * matched) = 2 ^ 52 := by
    rw [Nat.mul_comm]
    exact roundedQuotient_mul hpos _
  simp only [ofCounts, Nat.ne_of_gt hpos, h0, if_false, hshift, Nat.min_zero, Nat.zero_add, hdigits]
  rfl

/-- As long as the total is a binary64 number of 53 digits, nothing else is rounded to 1. -/
theorem ofCounts_eq_one_iff {matched total : Nat} (h : 2 * matched ≤ total)
    (hsize : total < 2 ^ (53 : Nat)) : ofCounts matched total = one ↔ 2 * matched = total := by
  refine ⟨fun hone => ?_, ofCounts_eq_one⟩
  by_cases heq : 2 * matched = total
  · exact heq
  have ht : total ≠ 0 := by omega
  by_cases h0 : matched = 0
  · rw [ofCounts, if_neg ht, if_pos h0] at hone
    cases hone
  -- less than the total is shifted by a place at least
  have hshift : leadingShift (2 * matched) total ≠ 0 := by
    intro hs
    have := total_le_shifted total (show 2 * matched ≠ 0 by omega)
    rw [hs] at this
    omega
  rw [ofCounts, if_neg ht, if_neg h0, one, mk.injEq] at hone
  generalize hs : min 1022 (leadingShift (2 * matched) total) = s at hone
  have hdigits : roundedQuotient (2 * matched * 2 ^ (s + 52)) total ≤ 2 ^ 53 :=
    roundedQuotient_shifted_le ht h (by omega)
  by_cases hs1 : s = 1
  · subst hs1
    -- one unit of the total is more than one of the last digit
    have hle : 2 * matched * 2 ^ (1 + 52) ≤ (2 ^ 53 - 1) * total := by omega
    have := roundedQuotient_mono total hle
    rw [roundedQuotient_mul (Nat.pos_of_ne_zero ht)] at this
    omega
  · omega

example : ofCounts 3 8 = ⟨0x3fe8000000000000⟩ := by decide
example : ofCounts 1 6 = ⟨0x3fd5555555555555⟩ := by decide
example : ofCounts 9 19 = ⟨0x3fee50d79435e50d⟩ := by decide
example : ofCounts 5 10 = one := by decide

end Score

/-! ## Cutoffs -/

/-- The least score that counts as close. -/
inductive Cutoff where
  | atLeast (bound : Score)
  /-- No score counts as close. -/
  | unreachable
  deriving DecidableEq, Repr

namespace Cutoff

/-- The cutoff at a binary64 number given by its bit pattern. A negative bound
is met by every score, and one that is not a number by none. -/
def ofBits (pattern : Nat) : Cutoff :=
  let magnitude := pattern % 2 ^ (63 : Nat)
  if 2047 * 2 ^ (52 : Nat) < magnitude then unreachable
  else if pattern < 2 ^ (63 : Nat) then atLeast ⟨magnitude⟩
  else atLeast .zero

/-- Whether a score counts as close. -/
def admits : Cutoff → Score → Bool
  | atLeast bound, s => bound ≤ s
  | unreachable, _ => false

theorem admits_mono {c : Cutoff} {s t : Score} (h : s ≤ t) (hs : c.admits s) : c.admits t := by
  cases c with
  | atLeast b =>
    simp only [admits, decide_eq_true_eq, Score.le_def] at *
    omega
  | unreachable => exact hs

end Cutoff

end ErrorHints
