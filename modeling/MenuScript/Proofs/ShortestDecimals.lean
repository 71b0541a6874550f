import MenuScript.Value
import MenuScript.Proofs.LineGrammar
import MenuScript.Proofs.NearestCodes
import Mathlib.Algebra.Order.Floor.Semifield

/-!
# Decimals that read back

The decimal that is shown for a finite code is read back as that code. It lies between the two
powers of ten that enclose the magnitude, so that the place of its point tells the size of the
magnitude, except where it is the upper power itself; at the two sizes where the writing changes
that power is no decimal of a smaller magnitude.
-/

namespace MenuScript.Number

/-- The number of digits of a positive number tells the powers of ten around it. -/
theorem length_toDigits {n : ℕ} (positive : 0 < n) :
    ((Nat.toDigits 10 n).length : ℤ) = Int.log 10 (n : ℚ) + 1 := by
  have ten : 1 < 10 := by decide
  have length := Nat.length_toDigits_pos (b := 10) (n := n)
  generalize sized : (Nat.toDigits 10 n).length = k at length ⊢
  obtain ⟨k, rfl⟩ := Nat.exists_eq_succ_of_ne_zero length.ne'
  have high : n < 10 ^ (k + 1) := (Nat.length_toDigits_le_iff ten length).1 sized.le
  have low : 10 ^ k ≤ n := by
    rcases Nat.eq_zero_or_pos k with rfl | some
    · exact positive
    · by_contra less
      have := (Nat.length_toDigits_le_iff ten some).2 (Nat.lt_of_not_le less)
      omega
  rw [log_eq_of_between (e := k) ten (by exact_mod_cast low) (by exact_mod_cast high)]
  rfl

namespace BinaryFormat

private theorem decimalPoint_eq_log {num den : ℕ} (positive : 0 < num) (positive' : 0 < den) :
    decimalPoint num den = Int.log 10 (num / den : ℚ) + 1 := by
  have pos : (0 : ℚ) < num := by exact_mod_cast positive
  have pos' : (0 : ℚ) < den := by exact_mod_cast positive'
  rw [decimalPoint]
  split_ifs with le
  · rw [length_toDigits (Nat.div_pos le positive'), Int.log_natCast,
      Int.log_of_one_le_right _ ((one_le_div pos').2 (by exact_mod_cast le)),
      Nat.floor_div_eq_div]
  · -- below one the digits are those of the reciprocal, rounded up and less one
    have count : 0 < (den - 1) / num := Nat.div_pos (by omega) positive
    have few : (den - 1) / num * num < den := by
      have := Nat.div_mul_le_self (den - 1) num
      omega
    have many : den ≤ ((den - 1) / num + 1) * num := by
      have := Nat.lt_div_mul_add (a := den - 1) positive
      rw [Nat.add_one_mul]
      omega
    rw [length_toDigits count, Int.log_natCast]
    generalize (den - 1) / num = n at *
    have low : 10 ^ Nat.log 10 n * num < den :=
      Nat.lt_of_le_of_lt (Nat.mul_le_mul_right _ (Nat.pow_log_le_self 10 count.ne')) few
    have high : den ≤ 10 ^ (Nat.log 10 n + 1) * num :=
      many.trans (Nat.mul_le_mul_right _ (Nat.lt_pow_succ_log_self (by decide) n))
    have log : Int.log 10 (num / den : ℚ) = -((Nat.log 10 n + 1 : ℕ) : ℤ) := by
      refine log_eq_of_between (by decide) ?_ ?_
      · rw [zpow_neg, zpow_natCast, inv_eq_one_div, div_le_div_iff₀ (by positivity) pos']
        rw [one_mul, mul_comm]
        exact_mod_cast high
      · have next : -((Nat.log 10 n + 1 : ℕ) : ℤ) + 1 = -(Nat.log 10 n : ℤ) := by omega
        rw [next, zpow_neg, zpow_natCast, inv_eq_one_div, div_lt_div_iff₀ pos' (by positivity)]
        rw [one_mul, mul_comm]
        exact_mod_cast low
    rw [log]
    push_cast
    ring

section Neighbours

variable {f : BinaryFormat} {code num den : ℕ} {e : ℤ} {d : Decimal}

/-- The multiple of `10 ^ e` at or below a quotient, in natural numbers. -/
def gridFloor (num den : ℕ) (e : ℤ) : ℕ := num * 10 ^ (-e).toNat / (den * 10 ^ e.toNat)

private theorem gridFloor_eq_floor (num den : ℕ) (e : ℤ) :
    gridFloor num den e = ⌊(num / den : ℚ) / 10 ^ e⌋₊ := by
  rw [gridFloor, ← Nat.floor_div_eq_div (K := ℚ), zpow_eq_div]
  push_cast
  rw [div_div_div_eq]

/-- A neighbour reads back, and is one of the two multiples around the quotient. -/
theorem neighbour_of_some (found : f.neighbour? code num den e = some d) :
    d.nearest f = code ∧ d.exponent = e ∧
      gridFloor num den e ≤ d.digits ∧ d.digits ≤ gridFloor num den e + 1 := by
  refine ⟨by simpa using List.find?_some found, ?_⟩
  have mem := List.mem_of_find?_eq_some found
  simp only [Nat.pow_eq, ← gridFloor.eq_1] at mem
  split_ifs at mem <;> simp only [List.mem_cons, List.not_mem_nil, or_false] at mem <;>
    rcases mem with rfl | rfl | rfl <;> simp

/-- Both neighbours on a grid of `k + 1` digits stay between the powers of ten around a number. -/
theorem gridFloor_between {v : ℚ} {p : ℤ} (k : ℕ) (low : (10 : ℚ) ^ (p - 1) ≤ v)
    (high : v < (10 : ℚ) ^ p) :
    10 ^ k ≤ ⌊v / 10 ^ (p - (k + 1 : ℕ))⌋₊ ∧ ⌊v / 10 ^ (p - (k + 1 : ℕ))⌋₊ < 10 ^ (k + 1) := by
  have unit : (0 : ℚ) < 10 ^ (p - (k + 1 : ℕ)) := by positivity
  have ten : (10 : ℚ) ≠ 0 := by norm_num
  constructor
  · refine Nat.le_floor ?_
    rw [le_div_iff₀ unit, Nat.cast_pow, Nat.cast_ofNat, ← zpow_natCast, ← zpow_add₀ ten]
    have exponent : (k : ℤ) + (p - (k + 1 : ℕ)) = p - 1 := by omega
    rw [exponent]
    exact low
  · rw [Nat.floor_lt (div_nonneg ((by positivity : (0 : ℚ) ≤ 10 ^ (p - 1)).trans low) unit.le),
      div_lt_iff₀ unit, Nat.cast_pow, Nat.cast_ofNat, ← zpow_natCast, ← zpow_add₀ ten,
      add_sub_cancel]
    exact high

private theorem value_exactDecimal (f : BinaryFormat) (code : ℕ) :
    (f.exactDecimal code).value = f.magnitude code := by
  rw [exactDecimal, magnitude]
  dsimp only
  split_ifs with whole
  · obtain ⟨n, exponent⟩ := Int.eq_ofNat_of_zero_le whole
    rw [exponent, Decimal.value]
    simp
  · obtain ⟨n, exponent⟩ : ∃ n : ℕ, (f.decode code).2 = -(n : ℤ) :=
      ⟨(f.decode code).2.natAbs, by omega⟩
    rw [exponent, Decimal.value]
    simp only [Nat.pow_eq, neg_neg, Int.toNat_natCast, Nat.cast_mul, Nat.cast_pow, Nat.cast_ofNat]
    rw [mul_assoc, zpow_neg, zpow_neg, zpow_natCast, zpow_natCast,
      show (10 : ℚ) = 2 * 5 by norm_num, mul_pow]
    field_simp

end Neighbours

/-- What is shown for a finite code reads back as that code. It is at least the power of ten at or
below the magnitude, and at most the next one. -/
theorem shortest_between {code : ℕ} (positive : 0 < code) (finite : code < double.infinity) :
    (double.shortest code).nearest .double = code ∧
      (10 : ℚ) ^ Int.log 10 (double.magnitude code) ≤ (double.shortest code).value ∧
      (double.shortest code).value ≤ (10 : ℚ) ^ (Int.log 10 (double.magnitude code) + 1) := by
  have pos := double.magnitude_pos positive
  have low : (10 : ℚ) ^ Int.log 10 (double.magnitude code) ≤ double.magnitude code := by
    exact_mod_cast Int.zpow_log_le_self (b := 10) (by decide) pos
  have high : double.magnitude code < (10 : ℚ) ^ (Int.log 10 (double.magnitude code) + 1) := by
    exact_mod_cast Int.lt_zpow_succ_log_self (b := 10) (by decide) (double.magnitude code)
  rw [shortest]
  dsimp only
  rw [decimalPoint_eq_log (double.fraction_num_pos positive) (double.fraction_den_pos code),
    fraction_div]
  generalize Int.log 10 (double.magnitude code) = p at *
  cases found : (List.range 17).findSome? fun n : ℕ => double.neighbour? code
      (double.fraction code).1 (double.fraction code).2 (p + 1 - (n + 1 : ℕ)) with
  | none =>
    rw [Option.getD_none, value_exactDecimal]
    exact ⟨Decimal.nearest_double_of_magnitude positive finite (value_exactDecimal _ _),
      low, high.le⟩
  | some d =>
    obtain ⟨k, -, some⟩ := List.exists_of_findSome?_eq_some found
    obtain ⟨reads, exponent, above, below⟩ := neighbour_of_some some
    have grid := gridFloor_between (p := p + 1) k (by simpa using low) high
    rw [← fraction_div, ← gridFloor_eq_floor] at grid
    have ten : (10 : ℚ) ≠ 0 := by norm_num
    have first : (10 : ℚ) ^ p = (10 ^ k : ℕ) * 10 ^ (p + 1 - (k + 1 : ℕ)) := by
      rw [Nat.cast_pow, Nat.cast_ofNat, ← zpow_natCast, ← zpow_add₀ ten]
      congr 1
      omega
    have last : (10 : ℚ) ^ (p + 1) = (10 ^ (k + 1) : ℕ) * 10 ^ (p + 1 - (k + 1 : ℕ)) := by
      rw [Nat.cast_pow, Nat.cast_ofNat, ← zpow_natCast, ← zpow_add₀ ten, add_sub_cancel]
    rw [Option.getD_some, Decimal.value, exponent, first, last]
    refine ⟨reads, ?_, ?_⟩
    · gcongr
      exact grid.1.trans above
    · gcongr
      exact below.trans grid.2

theorem shortest_digits_pos {code : ℕ} (positive : 0 < code) (finite : code < double.infinity) :
    0 < (double.shortest code).digits := by
  have low := (shortest_between positive finite).2.1
  refine Nat.pos_of_ne_zero fun zero => ?_
  rw [Decimal.value, zero, Nat.cast_zero, zero_mul] at low
  exact absurd low (not_le.2 (by positivity))

/-- Finite magnitudes are within the powers of ten whose exponents bound their powers of two. -/
theorem log_magnitude_between {code : ℕ} (positive : 0 < code)
    (finite : code < double.infinity) :
    -1075 ≤ Int.log 10 (double.magnitude code) ∧ Int.log 10 (double.magnitude code) < 1024 := by
  have pos := double.magnitude_pos positive
  have codes := double.nearest_fraction positive finite
  have den := double.fraction_den_pos code
  constructor
  · have low : (2 : ℚ) ^ (-1074 : ℤ) ≤ 2 * double.magnitude code := by
      by_contra small
      rw [nearest_of_small double den (by rw [fraction_div]; exact lt_of_not_ge small)] at codes
      exact positive.ne codes
    rw [← Int.zpow_le_iff_le_log (by decide) pos]
    have half : (2 : ℚ) ^ (-1074 : ℤ) = 2 * 2 ^ (-(1075 : ℕ) : ℤ) := by
      rw [← zpow_one_add₀ two_ne_zero]
      rfl
    have less : ((10 : ℕ) : ℚ) ^ (-(1075 : ℕ) : ℤ) ≤ 2 ^ (-(1075 : ℕ) : ℤ) := by
      rw [zpow_neg, zpow_neg, zpow_natCast, zpow_natCast]
      exact inv_anti₀ (by positivity) (pow_le_pow_left₀ (by norm_num) (by norm_num) _)
    refine less.trans ?_
    linarith
  · rw [← Int.lt_zpow_iff_log_lt (by decide) pos]
    have high : double.magnitude code < (2 : ℚ) ^ ((1024 : ℕ) : ℤ) := by
      by_contra large
      rw [nearest_of_large double (by decide) den
        (by rw [fraction_div]; exact le_of_not_gt large)] at codes
      exact finite.ne' codes
    refine high.trans_le ?_
    exact_mod_cast pow_le_pow_left₀ (by norm_num) (by norm_num : (2 : ℚ) ≤ 10) 1024

end BinaryFormat

section WrittenDigits

open Statement (RunOf)

theorem digitsValue_toDigits (n : ℕ) : digitsValue (Nat.toDigits 10 n) = n := by
  have value := Nat.ofDigitChars_ten_toDigits (n := n)
  rwa [Nat.ofDigitChars_eq_foldl] at value

theorem runOf_toDigits (n : ℕ) : RunOf Char.isDigit (Nat.toDigits 10 n) :=
  ⟨List.ne_nil_of_length_pos Nat.length_toDigits_pos,
    fun _ mem => Nat.isDigit_of_mem_toDigits (by decide) (by decide) mem⟩

theorem digitsValue_append_zeros (s : List Char) (k : ℕ) :
    digitsValue (s ++ List.replicate k '0') = digitsValue s * 10 ^ k := by
  induction k with
  | zero => simp
  | succ k ih =>
    rw [List.replicate_succ', ← List.append_assoc, digitsValue_append, ih, Nat.pow_succ]
    simp [digitsValue, Nat.mul_assoc]

theorem digitsValue_zeros_append (s : List Char) (k : ℕ) :
    digitsValue (List.replicate k '0' ++ s) = digitsValue s := by
  have zeros : digitsValue (List.replicate k '0') = 0 := by
    simpa [digitsValue] using digitsValue_append_zeros [] k
  rw [digitsValue_append, zeros, Nat.zero_mul, Nat.zero_add]

/-- Only zeros are left out at the end. -/
theorem exists_eq_append_zeros (s : List Char) :
    ∃ k, s = Text.dropEndWhile (· == '0') s ++ List.replicate k '0' := by
  obtain ⟨zeros, all, -, split⟩ :=
    Statement.dropWhile_eq_iff.1 (rfl : s.reverse.dropWhile (· == '0') = _)
  have same : zeros = List.replicate zeros.length '0' :=
    List.eq_replicate_iff.2 ⟨rfl, fun c mem => by simpa using all c mem⟩
  refine ⟨zeros.length, ?_⟩
  rw [Text.dropEndWhile, ← List.reverse_replicate, ← List.reverse_append, ← same, ← split,
    List.reverse_reverse]

namespace Digits

/-- The number that digits and the place of their point stand for. -/
def value (d : Digits) : ℚ := digitsValue d.digits * (10 : ℚ) ^ (d.point - d.digits.length)

theorem value_ofDecimal (d : Decimal) : (ofDecimal d).value = d.value := by
  obtain ⟨k, split⟩ := exists_eq_append_zeros (Nat.toDigits 10 d.digits)
  have length := congrArg List.length split
  have digits := congrArg digitsValue split
  rw [digitsValue_toDigits, digitsValue_append_zeros] at digits
  rw [List.length_append, List.length_replicate] at length
  have exponent : (ofDecimal d).point - (ofDecimal d).digits.length = k + d.exponent := by
    simp only [ofDecimal]
    omega
  rw [value, exponent, zpow_add₀ (by norm_num), zpow_natCast, ← mul_assoc, Decimal.value]
  conv_rhs => rw [digits]
  push_cast
  rfl

theorem runOf_ofDecimal {d : Decimal} (positive : 0 < d.digits) :
    RunOf Char.isDigit (ofDecimal d).digits := by
  obtain ⟨k, split⟩ := exists_eq_append_zeros (Nat.toDigits 10 d.digits)
  refine ⟨fun none => ?_, fun c mem => ?_⟩
  · have digits := congrArg digitsValue split
    have none' : Text.dropEndWhile (· == '0') (Nat.toDigits 10 d.digits) = [] := none
    rw [digitsValue_toDigits, digitsValue_append_zeros, none', digitsValue, List.foldl_nil,
      Nat.zero_mul] at digits
    exact positive.ne' digits
  · refine (runOf_toDigits d.digits).all c ?_
    rw [split]
    exact List.mem_append_left _ mem

/-- The point stands behind as many digits as the number has before its own. -/
theorem point_ofDecimal {d : Decimal} (positive : 0 < d.digits) :
    (ofDecimal d).point = Int.log 10 d.value + 1 := by
  have pos : (0 : ℚ) < d.digits := by exact_mod_cast positive
  have ten : (10 : ℚ) ≠ 0 := by norm_num
  have log : Int.log 10 d.value = Int.log 10 (d.digits : ℚ) + d.exponent := by
    have low := Int.zpow_log_le_self (b := 10) (by decide) pos
    have high := Int.lt_zpow_succ_log_self (b := 10) (by decide) (d.digits : ℚ)
    rw [Nat.cast_ofNat] at low high
    rw [Decimal.value]
    refine log_eq_of_between (by decide) ?_ ?_
    · rw [Nat.cast_ofNat, zpow_add₀ ten]
      gcongr
    · rw [Nat.cast_ofNat, add_right_comm, zpow_add₀ ten]
      gcongr
  rw [log, add_right_comm, ← length_toDigits positive]
  exact Int.add_comm _ _

private theorem isOrdinary_ofDecimal {d : Decimal} (positive : 0 < d.digits) :
    (ofDecimal d).isOrdinary = true ↔
      (10 : ℚ) ^ (-3 : ℤ) ≤ d.value ∧ d.value < (10 : ℚ) ^ (7 : ℤ) := by
  have pos := Decimal.value_pos positive
  have low := Int.zpow_le_iff_le_log (b := 10) (x := -3) (by decide) pos
  have high := Int.lt_zpow_iff_log_lt (b := 10) (x := 7) (by decide) pos
  rw [Nat.cast_ofNat] at low high
  rw [low, high, isOrdinary, point_ofDecimal positive, Bool.and_eq_true, decide_eq_true_iff,
    decide_eq_true_iff]
  omega

end Digits

end WrittenDigits

namespace BinaryFormat

/-- The code of a thousandth is not below a thousandth. -/
theorem thousandth_le_magnitude :
    (10 : ℚ) ^ (-3 : ℤ) ≤ double.magnitude (Decimal.nearest .double ⟨1, -3⟩) := by
  have decoded : double.decode (Decimal.nearest .double ⟨1, -3⟩) = (4611686018427388, -62) := by
    decide +kernel
  rw [magnitude, decoded]
  norm_num

private theorem ten_million_le_magnitude :
    (10 : ℚ) ^ (7 : ℤ) ≤ double.magnitude (Decimal.nearest .double ⟨1, 7⟩) := by
  have decoded : double.decode (Decimal.nearest .double ⟨1, 7⟩) = (5368709120000000, -29) := by
    decide +kernel
  rw [magnitude, decoded]
  norm_num

/-- Where the writing changes, no smaller magnitude is shown as the power of ten itself. -/
theorem le_magnitude_of_le_shortest {code : ℕ} {e : ℤ} (positive : 0 < code)
    (finite : code < double.infinity)
    (reaches : (10 : ℚ) ^ e ≤ double.magnitude (Decimal.nearest .double ⟨1, e⟩)) :
    (10 : ℚ) ^ e ≤ (double.shortest code).value ↔ (10 : ℚ) ^ e ≤ double.magnitude code := by
  have pos := double.magnitude_pos positive
  obtain ⟨reads, low, high⟩ := shortest_between positive finite
  have log := Int.zpow_le_iff_le_log (b := 10) (x := e) (by decide) pos
  rw [Nat.cast_ofNat] at log
  have powers : ∀ {i j : ℤ}, (10 : ℚ) ^ i ≤ 10 ^ j ↔ i ≤ j := zpow_le_zpow_iff_right₀ (by norm_num)
  constructor
  · intro shown
    rcases lt_or_eq_of_le (powers.1 (shown.trans high)) with less | eq
    · exact log.2 (by omega)
    · -- the decimal is the power of ten, so the code is the one that the power is rounded to
      have same : (double.shortest code).value = (⟨1, e⟩ : Decimal).value := by
        rw [← eq] at high
        rw [le_antisymm high shown]
        simp [Decimal.value]
      rw [← Decimal.nearest_double_congr same, reads] at reaches
      exact reaches
  · intro le
    exact (powers.2 (log.1 le)).trans low

/-- Positional writing is for magnitudes from a thousandth up to ten million. -/
theorem isOrdinary_shortest {code : ℕ} (positive : 0 < code) (finite : code < double.infinity) :
    (Digits.ofDecimal (double.shortest code)).isOrdinary = true ↔
      (10 : ℚ) ^ (-3 : ℤ) ≤ double.magnitude code ∧
        double.magnitude code < (10 : ℚ) ^ (7 : ℤ) := by
  rw [Digits.isOrdinary_ofDecimal (shortest_digits_pos positive finite),
    le_magnitude_of_le_shortest positive finite thousandth_le_magnitude, ← not_le,
    le_magnitude_of_le_shortest positive finite ten_million_le_magnitude, not_le]

end BinaryFormat

end MenuScript.Number
