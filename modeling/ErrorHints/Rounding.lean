/-!
# Rounding

The nearest whole quotient and the nearest binary64 number, a half going to the
even neighbour, in exact natural arithmetic.

Results:
* `roundedQuotient_mono`: rounding keeps the order.
* `nearestDouble_of_lt`: natural numbers of 53 bits are binary64 numbers.
-/
namespace ErrorHints

/-- The natural number nearest to `n / d`; a half goes to the even neighbour. -/
def roundedQuotient (n d : Nat) : Nat :=
  let q := n / d
  let r := n % d
  if 2 * r < d then q else if d < 2 * r then q + 1 else q + q % 2

theorem quotient_le_roundedQuotient (n d : Nat) : n / d ≤ roundedQuotient n d := by
  simp only [roundedQuotient]; split <;> (try split) <;> omega

theorem roundedQuotient_le_succ (n d : Nat) : roundedQuotient n d ≤ n / d + 1 := by
  simp only [roundedQuotient]; split <;> (try split) <;> omega

theorem roundedQuotient_mono {n m : Nat} (d : Nat) (h : n ≤ m) :
    roundedQuotient n d ≤ roundedQuotient m d := by
  have hq : n / d ≤ m / d := Nat.div_le_div_right h
  rcases Nat.lt_or_eq_of_le hq with hlt | heq
  · have := roundedQuotient_le_succ n d
    have := quotient_le_roundedQuotient m d
    omega
  · have hn := Nat.div_add_mod n d
    have hm := Nat.div_add_mod m d
    rw [heq] at hn
    have hr : n % d ≤ m % d := by omega
    simp only [roundedQuotient, heq]
    repeat' split
    all_goals omega

/-- Rounding a whole quotient changes nothing. -/
theorem roundedQuotient_mul {d : Nat} (hd : 0 < d) (k : Nat) : roundedQuotient (k * d) d = k := by
  simp [roundedQuotient, Nat.mul_div_cancel _ hd, hd]

-- powers of naturals, whatever other powers are known
attribute [local instance (high)] instPowNat

/-- The binary64 number nearest to `n`, unless that is too large. The digits after the first
53 are rounded away. -/
def nearestDouble (n : Nat) : Nat :=
  let unit := 2 ^ (n.log2 - 52)
  roundedQuotient n unit * unit

theorem nearestDouble_of_lt {n : Nat} (h : n < 2 ^ (53 : Nat)) : nearestDouble n = n := by
  have : n.log2 - 52 = 0 := by
    by_cases hn : n = 0
    · subst hn; decide
    · have := (Nat.log2_lt hn).2 h
      omega
  rw [nearestDouble, this, Nat.pow_zero, Nat.mul_one]
  simpa using roundedQuotient_mul Nat.one_pos n

/-- From here on a number is rounded past the largest binary64 number. -/
def doubleLimit : Nat := 2 ^ (1024 : Nat) - 2 ^ (970 : Nat)

end ErrorHints
