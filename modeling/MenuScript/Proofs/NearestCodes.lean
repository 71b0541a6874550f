import MenuScript.Number.ShortestDecimal
import Mathlib.Algebra.Order.Field.Power
import Mathlib.Data.Int.Log
import Mathlib.Data.Rat.Floor
import Mathlib.Tactic.Linarith
import Mathlib.Tactic.NormNum
import Mathlib.Tactic.Ring

/-!
# The code nearest to a quotient

Rounding is done on a numerator and a denominator, and depends on nothing but their quotient. The
magnitude of a finite code is rounded to that code, what is beyond the largest magnitudes to
infinity, and what is below half of the smallest one to zero. So a decimal whose exponent alone
decides is settled as its quotient would be, and decimals of the same value have the same code.
-/

namespace MenuScript.Number

/-- A power with an integer exponent as the quotient of two powers. -/
theorem zpow_eq_div (b : ℚ) (e : ℤ) : b ^ e = b ^ e.toNat / b ^ (-e).toNat := by
  rcases Int.le_total 0 e with le | le
  · obtain ⟨n, rfl⟩ := Int.eq_ofNat_of_zero_le le
    simp
  · obtain ⟨n, hn⟩ := Int.eq_ofNat_of_zero_le (Int.neg_nonneg_of_nonpos le)
    obtain rfl : e = -(n : ℤ) := by omega
    simp [zpow_neg]

theorem log_eq_of_between {b : ℕ} {r : ℚ} {e : ℤ} (large : 1 < b) (low : (b : ℚ) ^ e ≤ r)
    (high : r < (b : ℚ) ^ (e + 1)) : Int.log b r = e := by
  have base : (0 : ℚ) < b := by exact_mod_cast Nat.lt_trans Nat.one_pos large
  have positive : 0 < r := lt_of_lt_of_le (zpow_pos base e) low
  have := (Int.zpow_le_iff_le_log large positive).1 low
  have := (Int.lt_zpow_iff_log_lt large positive).1 high
  omega

namespace BinaryFormat

section Rounding

variable {num den num' den' k m : ℕ}

private theorem roundQuotient_mul (positive : 0 < k) (num den : ℕ) :
    roundQuotient (k * num) (k * den) = roundQuotient num den := by
  have double : ∀ r, 2 * (k * r) = k * (2 * r) := fun r => by ring
  simp only [roundQuotient, Nat.mul_div_mul_left _ _ positive, Nat.mul_mod_mul_left, double,
    Nat.mul_lt_mul_left positive]

/-- Quotients that are equal are rounded to the same number. -/
theorem roundQuotient_congr (positive : 0 < den) (positive' : 0 < den')
    (same : num * den' = num' * den) : roundQuotient num den = roundQuotient num' den' := by
  rw [← roundQuotient_mul positive' num den, ← roundQuotient_mul positive num' den',
    Nat.mul_comm den' num, same, Nat.mul_comm num' den, Nat.mul_comm den' den]

private theorem roundQuotient_of_whole (positive : 0 < den) : roundQuotient (m * den) den = m := by
  simp [roundQuotient, Nat.mul_div_cancel m positive, positive]

private theorem le_roundQuotient (positive : 0 < den) (le : m * den ≤ num) :
    m ≤ roundQuotient num den := by
  have whole : m ≤ num / den := (Nat.le_div_iff_mul_le positive).2 le
  simp only [roundQuotient]
  split_ifs <;> omega

private theorem roundQuotient_of_small (small : 2 * num < den) : roundQuotient num den = 0 := by
  have less : num < den := by omega
  simp [roundQuotient, Nat.div_eq_of_lt less, Nat.mod_eq_of_lt less, small]

/-- A quotient is compared with multiples of a power of two in natural numbers. -/
theorem mul_div_lt_mul_zpow_iff (positive : 0 < den) (num k m : ℕ) (e : ℤ) :
    (k : ℚ) * (num / den) < m * (2 : ℚ) ^ e ↔
      k * (num * 2 ^ (-e).toNat) < m * (den * 2 ^ e.toNat) := by
  have pos : (0 : ℚ) < den := by exact_mod_cast positive
  rw [zpow_eq_div 2 e, mul_div_assoc', mul_div_assoc', div_lt_div_iff₀ pos (by positivity),
    ← Nat.cast_lt (α := ℚ)]
  push_cast
  rw [mul_assoc, mul_assoc, mul_comm (2 ^ e.toNat : ℚ) (den : ℚ)]

theorem mul_zpow_le_div_iff (positive : 0 < den) (num m : ℕ) (e : ℤ) :
    (m : ℚ) * (2 : ℚ) ^ e ≤ num / den ↔ m * (den * 2 ^ e.toNat) ≤ num * 2 ^ (-e).toNat := by
  have less := mul_div_lt_mul_zpow_iff positive num 1 m e
  rw [Nat.cast_one, one_mul, Nat.one_mul] at less
  exact not_lt.symm.trans ((not_congr less).trans Nat.not_lt)

/-- The exponent that is guessed from the lengths of both numbers is one too large at most. -/
theorem floorLog_eq_log (positive : 0 < num) (positive' : 0 < den) :
    floorLog num den = Int.log 2 (num / den : ℚ) := by
  have pos : (0 : ℚ) < den := by exact_mod_cast positive'
  have numLow : (2 : ℚ) ^ (Nat.log2 num : ℤ) ≤ num := by
    exact_mod_cast Nat.log2_self_le positive.ne'
  have numHigh : (num : ℚ) < 2 ^ ((Nat.log2 num : ℤ) + 1) := by
    exact_mod_cast Nat.lt_log2_self (n := num)
  have denLow : (2 : ℚ) ^ (Nat.log2 den : ℤ) ≤ den := by
    exact_mod_cast Nat.log2_self_le positive'.ne'
  have denHigh : (den : ℚ) < 2 ^ ((Nat.log2 den : ℤ) + 1) := by
    exact_mod_cast Nat.lt_log2_self (n := den)
  have test := mul_zpow_le_div_iff positive' num 1 ((Nat.log2 num : ℤ) - Nat.log2 den)
  rw [Nat.cast_one, one_mul, Nat.one_mul] at test
  rw [floorLog]
  simp only [Nat.pow_eq]
  generalize (Nat.log2 num : ℤ) = a at *
  generalize (Nat.log2 den : ℤ) = b at *
  split_ifs with below
  · refine (log_eq_of_between Nat.one_lt_two (test.2 below) ?_).symm
    rw [Nat.cast_ofNat, div_lt_iff₀ pos]
    calc (num : ℚ) < 2 ^ (a + 1) := numHigh
      _ = 2 ^ (a - b + 1) * 2 ^ b := by rw [← zpow_add₀ two_ne_zero]; congr 1; ring
      _ ≤ 2 ^ (a - b + 1) * den := by gcongr
  · refine (log_eq_of_between Nat.one_lt_two ?_ ?_).symm
    · rw [Nat.cast_ofNat, le_div_iff₀ pos]
      calc (2 : ℚ) ^ (a - b - 1) * den ≤ 2 ^ (a - b - 1) * 2 ^ (b + 1) := by gcongr
        _ = 2 ^ a := by rw [← zpow_add₀ two_ne_zero]; congr 1; ring
        _ ≤ num := numLow
    · rw [Nat.cast_ofNat, Int.sub_add_cancel]
      exact lt_of_not_ge fun le => below (test.1 le)

theorem unitExponent_eq (f : BinaryFormat) (positive : 0 < num) (positive' : 0 < den) :
    f.unitExponent num den
      = max (Int.log 2 (num / den : ℚ) - f.fractionBits) f.leastExponent := by
  rw [unitExponent, floorLog_eq_log positive positive']

/-- Nothing but the quotient of both numbers counts. -/
theorem nearest_congr (f : BinaryFormat) (positive : 0 < den) (positive' : 0 < den')
    (same : (num / den : ℚ) = num' / den') : f.nearest num den = f.nearest num' den' := by
  have pos : (den : ℚ) ≠ 0 := by exact_mod_cast positive.ne'
  have pos' : (den' : ℚ) ≠ 0 := by exact_mod_cast positive'.ne'
  have cross : num * den' = num' * den := by
    rw [div_eq_div_iff pos pos'] at same
    exact_mod_cast same
  rcases Nat.eq_zero_or_pos num with rfl | nonzero
  · obtain rfl : num' = 0 := by
      simpa [positive.ne'] using cross.symm
    rfl
  · have nonzero' : 0 < num' := by
      refine Nat.pos_of_ne_zero fun zero => ?_
      rw [zero, Nat.zero_mul] at cross
      exact (Nat.mul_pos nonzero positive').ne' cross
    have unit : f.unitExponent num den = f.unitExponent num' den' := by
      rw [unitExponent_eq f nonzero positive, unitExponent_eq f nonzero' positive', same]
    rw [nearest, nearest, if_neg nonzero.ne', if_neg nonzero'.ne', unit]
    simp only [Nat.pow_eq]
    generalize f.unitExponent num' den' = q
    have scaled : num * 2 ^ (-q).toNat * (den' * 2 ^ q.toNat)
        = num' * 2 ^ (-q).toNat * (den * 2 ^ q.toNat) := by
      calc num * 2 ^ (-q).toNat * (den' * 2 ^ q.toNat)
          = num * den' * (2 ^ (-q).toNat * 2 ^ q.toNat) := by ring
        _ = num' * den * (2 ^ (-q).toNat * 2 ^ q.toNat) := by rw [cross]
        _ = num' * 2 ^ (-q).toNat * (den * 2 ^ q.toNat) := by ring
    rw [roundQuotient_congr (by positivity) (by positivity) scaled]

end Rounding

section Codes

variable (f : BinaryFormat) {num den code : ℕ}

/-- The magnitude that a finite code stands for. -/
def magnitude (code : ℕ) : ℚ := (f.decode code).1 * (2 : ℚ) ^ (f.decode code).2

private theorem leastExponent_le_decode (code : ℕ) : f.leastExponent ≤ (f.decode code).2 := by
  rw [decode]
  split_ifs <;> simp

/-- A significand has all its bits, except among the smallest magnitudes. -/
theorem decode_normal (code : ℕ) :
    2 ^ f.fractionBits ≤ (f.decode code).1 ∨ (f.decode code).2 = f.leastExponent := by
  rw [decode]
  split_ifs
  · exact .inr rfl
  · exact .inl (Nat.le_add_right _ _)

private theorem decode_lt (code : ℕ) : (f.decode code).1 < 2 ^ (f.fractionBits + 1) := by
  have less := Nat.mod_lt code (Nat.two_pow_pos f.fractionBits)
  rw [decode, Nat.pow_succ]
  simp only [Nat.pow_eq]
  split_ifs <;> dsimp only <;> omega

/-- Significand and exponent make up the code again. -/
theorem encode_decode (code : ℕ) :
    ((f.decode code).2 - f.leastExponent).toNat * 2 ^ f.fractionBits + (f.decode code).1
      = code := by
  have whole := Nat.div_add_mod code (2 ^ f.fractionBits)
  rw [decode]
  simp only [Nat.pow_eq]
  split_ifs with field
  · rw [field] at whole
    simpa using whole
  · obtain ⟨n, hn⟩ := Nat.exists_eq_succ_of_ne_zero field
    rw [hn] at whole
    rw [Nat.succ_eq_add_one, Nat.mul_add_one, Nat.mul_comm] at whole
    rw [hn, Nat.succ_sub_one, add_sub_cancel_left, Int.toNat_natCast]
    omega

theorem decode_pos (positive : 0 < code) : 0 < (f.decode code).1 := by
  refine Nat.pos_of_ne_zero fun zero => ?_
  rcases f.decode_normal code with normal | least
  · exact absurd (zero ▸ normal) (Nat.not_le.2 (Nat.two_pow_pos _))
  · have whole := f.encode_decode code
    simp [zero, least] at whole
    omega

theorem magnitude_pos (positive : 0 < code) : 0 < f.magnitude code := by
  have := f.decode_pos positive
  rw [magnitude]
  positivity

theorem fraction_den_pos (code : ℕ) : 0 < (f.fraction code).2 := Nat.pow_pos Nat.two_pos

theorem fraction_num_pos (positive : 0 < code) : 0 < (f.fraction code).1 :=
  Nat.mul_pos (f.decode_pos positive) (Nat.pow_pos Nat.two_pos)

theorem fraction_div (code : ℕ) :
    ((f.fraction code).1 : ℚ) / (f.fraction code).2 = f.magnitude code := by
  rw [magnitude, zpow_eq_div, fraction]
  push_cast [Nat.pow_eq]
  rw [mul_div_assoc]

/-- The unit in the last place of a magnitude is the one that its code counts in. -/
theorem unitExponent_fraction (positive : 0 < code) :
    f.unitExponent (f.fraction code).1 (f.fraction code).2 = (f.decode code).2 := by
  rw [unitExponent_eq f (f.fraction_num_pos positive) (f.fraction_den_pos code), fraction_div]
  have least := f.leastExponent_le_decode code
  have bound : (f.decode code).1 < 2 ^ (f.fractionBits + 1) := f.decode_lt code
  have pos := f.magnitude_pos positive
  have high : Int.log 2 (f.magnitude code) < f.fractionBits + 1 + (f.decode code).2 := by
    rw [← Int.lt_zpow_iff_log_lt Nat.one_lt_two pos, Nat.cast_ofNat, zpow_add₀ two_ne_zero,
      magnitude]
    gcongr
    exact_mod_cast bound
  rcases f.decode_normal code with normal | eq
  · have low : f.fractionBits + (f.decode code).2 ≤ Int.log 2 (f.magnitude code) := by
      rw [← Int.zpow_le_iff_le_log Nat.one_lt_two pos, Nat.cast_ofNat, zpow_add₀ two_ne_zero,
        magnitude]
      gcongr
      exact_mod_cast normal
    omega
  · omega

/-- A finite magnitude is rounded to its own code. -/
theorem nearest_fraction (positive : 0 < code) (finite : code < f.infinity) :
    f.nearest (f.fraction code).1 (f.fraction code).2 = code := by
  have nonzero := (f.fraction_num_pos positive).ne'
  rw [nearest, if_neg nonzero]
  dsimp only
  rw [f.unitExponent_fraction positive, fraction]
  simp only [Nat.pow_eq]
  rw [Nat.mul_assoc, Nat.mul_comm (2 ^ (f.decode code).2.toNat),
    roundQuotient_of_whole (by positivity), encode_decode, Nat.min_eq_left finite.le]

/-- Magnitudes from here on are beyond the finite ones. -/
def overflowExponent : ℤ :=
  f.leastExponent + (2 ^ f.exponentBits - 2 : ℕ) + f.fractionBits

theorem nearest_of_large (wide : 0 < f.exponentBits) (positive : 0 < den)
    (large : (2 : ℚ) ^ f.overflowExponent ≤ num / den) : f.nearest num den = f.infinity := by
  have pos : (0 : ℚ) < num / den := lt_of_lt_of_le (by positivity) large
  have nonzero : 0 < num := by
    refine Nat.pos_of_ne_zero fun zero => ?_
    simp [zero] at pos
  have unit := f.unitExponent_eq nonzero positive
  have low := (Int.zpow_le_iff_le_log (b := 2) Nat.one_lt_two pos).1 large
  rw [overflowExponent] at low
  have normal : f.unitExponent num den = Int.log 2 (num / den : ℚ) - f.fractionBits := by omega
  have full : 2 ^ f.fractionBits ≤ roundQuotient
      (num * 2 ^ (-f.unitExponent num den).toNat) (den * 2 ^ (f.unitExponent num den).toNat) := by
    refine le_roundQuotient (by positivity) ((mul_zpow_le_div_iff positive _ _ _).1 ?_)
    rw [normal, Nat.cast_pow, Nat.cast_ofNat, ← zpow_natCast, ← zpow_add₀ (by norm_num),
      add_sub_cancel]
    exact Int.zpow_log_le_self Nat.one_lt_two pos
  rw [nearest, if_neg nonzero.ne']
  simp only [Nat.pow_eq]
  refine Nat.min_eq_right ?_
  have two : 2 ≤ 2 ^ f.exponentBits := Nat.le_self_pow wide.ne' 2
  have field : 2 ^ f.exponentBits - 2 ≤ (f.unitExponent num den - f.leastExponent).toNat := by omega
  calc f.infinity = (2 ^ f.exponentBits - 2 + 1) * 2 ^ f.fractionBits := by
        rw [infinity]; simp only [Nat.pow_eq]; congr 1; omega
    _ = (2 ^ f.exponentBits - 2) * 2 ^ f.fractionBits + 2 ^ f.fractionBits := Nat.succ_mul _ _
    _ ≤ _ := Nat.add_le_add (Nat.mul_le_mul_right _ field) full

theorem nearest_of_small (positive : 0 < den)
    (small : 2 * (num / den : ℚ) < (2 : ℚ) ^ f.leastExponent) : f.nearest num den = 0 := by
  rcases Nat.eq_zero_or_pos num with zero | nonzero
  · rw [nearest, if_pos zero]
  · have pos : (0 : ℚ) < num := by exact_mod_cast nonzero
    have pos' : (0 : ℚ) < den := by exact_mod_cast positive
    have quotient : (0 : ℚ) < num / den := by positivity
    have high : Int.log 2 (num / den : ℚ) < f.leastExponent := by
      rw [← Int.lt_zpow_iff_log_lt Nat.one_lt_two quotient, Nat.cast_ofNat]
      linarith
    have unit : f.unitExponent num den = f.leastExponent := by
      rw [f.unitExponent_eq nonzero positive]
      omega
    rw [nearest, if_neg nonzero.ne', unit]
    simp only [Nat.pow_eq]
    rw [roundQuotient_of_small]
    · simp
    · have test := (mul_div_lt_mul_zpow_iff positive num 2 1 f.leastExponent).1
        (by simpa using small)
      simpa using test

end Codes

end BinaryFormat

namespace Decimal

/-- The number that a decimal stands for. -/
def value (d : Decimal) : ℚ := d.digits * (10 : ℚ) ^ d.exponent

theorem value_eq_div (d : Decimal) :
    d.value = ((d.digits * 10 ^ d.exponent.toNat : ℕ) : ℚ) / (10 ^ (-d.exponent).toNat : ℕ) := by
  rw [value, zpow_eq_div]
  push_cast
  rw [mul_div_assoc]

theorem value_pos {d : Decimal} (positive : 0 < d.digits) : 0 < d.value := by
  rw [value]
  positivity

private theorem two_zpow_le_ten_zpow (n : ℕ) : (2 : ℚ) ^ (3 * n : ℤ) ≤ 10 ^ (n : ℤ) := by
  rw [zpow_mul, zpow_natCast, zpow_natCast]
  exact pow_le_pow_left₀ (by norm_num) (by norm_num) n

/-- The exponents for which no power is computed decide as the quotient would. -/
theorem nearest_double_eq (d : Decimal) :
    d.nearest .double = BinaryFormat.double.nearest (d.digits * 10 ^ d.exponent.toNat)
      (10 ^ (-d.exponent).toNat) := by
  have den : 0 < 10 ^ (-d.exponent).toNat := by positivity
  have ten : (1 : ℚ) ≤ 10 := by norm_num
  rw [nearest]
  split_ifs with zero large small
  · rw [zero, Nat.zero_mul, BinaryFormat.nearest, if_pos rfl]
  · have one : (1 : ℚ) ≤ d.digits := by exact_mod_cast Nat.pos_of_ne_zero zero
    refine (BinaryFormat.nearest_of_large _ (by decide) den ?_).symm
    rw [← value_eq_div, value]
    calc (2 : ℚ) ^ BinaryFormat.double.overflowExponent
        ≤ 2 ^ (3 * (401 : ℕ) : ℤ) := zpow_le_zpow_right₀ one_le_two (by decide)
      _ ≤ 10 ^ ((401 : ℕ) : ℤ) := two_zpow_le_ten_zpow 401
      _ ≤ 10 ^ d.exponent := zpow_le_zpow_right₀ ten large
      _ ≤ d.digits * 10 ^ d.exponent := le_mul_of_one_le_left (by positivity) one
  · refine (BinaryFormat.nearest_of_small _ den ?_).symm
    rw [← value_eq_div, value]
    obtain ⟨n, exponent⟩ : ∃ n : ℕ, d.exponent = -(n : ℤ) := ⟨d.exponent.natAbs, by omega⟩
    have digits : (d.digits : ℚ) < 2 ^ ((Nat.log2 d.digits : ℤ) + 1) := by
      exact_mod_cast Nat.lt_log2_self (n := d.digits)
    have far : largestPower + Nat.log2 d.digits < n := by omega
    have power : (10 : ℚ) ^ d.exponent ≤ 2 ^ (-(3 * n : ℤ)) := by
      rw [exponent, zpow_neg, zpow_neg]
      exact inv_anti₀ (by positivity) (two_zpow_le_ten_zpow n)
    calc 2 * ((d.digits : ℚ) * 10 ^ d.exponent)
        < 2 * (2 ^ ((Nat.log2 d.digits : ℤ) + 1) * 2 ^ (-(3 * n : ℤ))) := by
          gcongr 2 * ?_
          exact mul_lt_mul digits power (by positivity) (by positivity)
      _ = 2 ^ (1 + ((Nat.log2 d.digits : ℤ) + 1 + -(3 * n : ℤ))) := by
          rw [zpow_one_add₀ two_ne_zero, zpow_add₀ two_ne_zero (_ + 1)]
      _ ≤ 2 ^ BinaryFormat.double.leastExponent := by
          refine zpow_le_zpow_right₀ one_le_two ?_
          rw [show BinaryFormat.double.leastExponent = -1074 by decide]
          rw [largestPower] at far
          omega
  · rfl

/-- Decimals of the same value have the same nearest code. -/
theorem nearest_double_congr {d d' : Decimal} (same : d.value = d'.value) :
    d.nearest .double = d'.nearest .double := by
  rw [nearest_double_eq, nearest_double_eq]
  refine BinaryFormat.nearest_congr _ (by positivity) (by positivity) ?_
  rw [← value_eq_div, ← value_eq_div, same]

/-- A decimal that stands for a finite magnitude has its code. -/
theorem nearest_double_of_magnitude {d : Decimal} {code : ℕ} (positive : 0 < code)
    (finite : code < BinaryFormat.double.infinity)
    (same : d.value = BinaryFormat.double.magnitude code) : d.nearest .double = code := by
  rw [nearest_double_eq, ← BinaryFormat.nearest_fraction _ positive finite]
  refine BinaryFormat.nearest_congr _ (by positivity) (BinaryFormat.fraction_den_pos _ _) ?_
  rw [← value_eq_div, BinaryFormat.fraction_div, same]

end Decimal

end MenuScript.Number
