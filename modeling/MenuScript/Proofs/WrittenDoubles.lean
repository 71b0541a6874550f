import MenuScript.Proofs.Numerals
import Mathlib

/-!
# Doubles and their texts

The text of a double reads back as that double, for every one of them: zeros and infinities of both
signs, NaN, and all finite numbers. For the finite ones it is a numeral, which has an exponent
exactly if the magnitude is not zero and not between a thousandth and ten million.
-/

namespace MenuScript.Number

open Float.Model (UnpackedFloat Format)
open BinaryFormat (double)

/-- The code of the magnitude of a double. -/
def codeOf (x : Float) : ℕ := x.toBits.toNat % double.signBit

/-- The magnitude of a finite double. -/
def magnitudeOf (x : Float) : ℚ :=
  match x.toModel.unpack with
  | .finite _ mantissa exponent _ => mantissa * (2 : ℚ) ^ exponent
  | _ => 0

/-- `Unpacks code u`: the parts of a double are those of a magnitude with the code. -/
inductive Unpacks (code : ℕ) : UnpackedFloat → Prop
  | nan (above : double.infinity < code) : Unpacks code .notANumber
  | infinity {sign : UnpackedFloat.Sign} (same : code = double.infinity) :
      Unpacks code (.infinity sign)
  | zero {sign : UnpackedFloat.Sign} (same : code = 0) : Unpacks code (.zero sign)
  | finite {sign : UnpackedFloat.Sign} {mantissa : ℕ} {exponent : ℤ} {positive : 0 < mantissa}
      (nonzero : 0 < code) (below : code < double.infinity)
      (decoded : double.decode code = (mantissa, exponent)) :
      Unpacks code (.finite sign mantissa exponent positive)

section Bits

variable {x : Float}

theorem double_decode (code : ℕ) :
    double.decode code = if code / 2 ^ 52 = 0 then (code % 2 ^ 52, (-1074 : ℤ))
      else (2 ^ 52 + code % 2 ^ 52, -1074 + (code / 2 ^ 52 - 1 : ℕ)) := rfl

private theorem exponent_field (x : Float) :
    (@UnpackedFloat.unpackExponent Format.binary64 x.toBits.toBitVec).toNat
      = codeOf x / 2 ^ 52 := by
  rw [UnpackedFloat.unpackExponent_def, BitVec.extractLsb'_toNat, Nat.shiftRight_eq_div_pow]
  change x.toBits.toNat / 2 ^ 52 % 2 ^ 11 = x.toBits.toNat % 2 ^ 63 / 2 ^ 52
  omega

private theorem fraction_field (x : Float) :
    (@UnpackedFloat.unpackMantissa Format.binary64 x.toBits.toBitVec).toNat
      = codeOf x % 2 ^ 52 := by
  rw [UnpackedFloat.unpackMantissa_def, BitVec.extractLsb'_toNat, Nat.shiftRight_zero]
  change x.toBits.toNat % 2 ^ 52 = x.toBits.toNat % 2 ^ 63 % 2 ^ 52
  omega

private theorem toNat_one_append (m : BitVec 52) : (1#1 ++ m).toNat = 2 ^ 52 + m.toNat := by
  rw [BitVec.toNat_append, ← Nat.shiftLeft_add_eq_or_of_lt m.isLt]
  rfl

theorem unpacks (x : Float) : Unpacks (codeOf x) x.toModel.unpack := by
  have exponent := exponent_field x
  have fraction := fraction_field x
  have infinity : double.infinity = 2047 * 2 ^ 52 := rfl
  have special_iff : @UnpackedFloat.unpackExponent Format.binary64 x.toBits.toBitVec
      = -BitVec.ofNat Format.binary64.exponentBits 1 ↔ codeOf x / 2 ^ 52 = 2047 := by
    rw [← BitVec.toNat_inj, exponent]
    rfl
  have least_iff : @UnpackedFloat.unpackExponent Format.binary64 x.toBits.toBitVec
      = BitVec.ofNat Format.binary64.exponentBits 0 ↔ codeOf x / 2 ^ 52 = 0 := by
    rw [← BitVec.toNat_inj, exponent]
    rfl
  have empty_iff : @UnpackedFloat.unpackMantissa Format.binary64 x.toBits.toBitVec
      = BitVec.ofNat Format.binary64.mantissaBitsWithoutImplicit 0 ↔ codeOf x % 2 ^ 52 = 0 := by
    rw [← BitVec.toNat_inj, fraction]
    rfl
  have bound : codeOf x < 2 ^ 63 := Nat.mod_lt _ (by decide)
  change Unpacks (codeOf x) (UnpackedFloat.unpack Format.binary64 x.toBits.toBitVec)
  rw [UnpackedFloat.unpack]
  dsimp only
  split_ifs with special empty least empty
  · rw [special_iff] at special
    rw [empty_iff] at empty
    exact .infinity (by omega)
  · rw [special_iff] at special
    rw [empty_iff] at empty
    exact .nan (by omega)
  · rw [least_iff] at least
    rw [empty_iff] at empty
    exact .zero (by omega)
  · rw [least_iff] at least
    rw [empty_iff] at empty
    refine .finite (by omega) (by omega) ?_
    rw [double_decode, if_pos least, fraction, exponent, least]
    rfl
  · rw [special_iff] at special
    rw [least_iff] at least
    refine .finite (by omega) (by omega) ?_
    rw [double_decode, if_neg least]
    refine Prod.ext ((congrArg (2 ^ 52 + ·) fraction.symm).trans (toNat_one_append _).symm) ?_
    change -1074 + ((codeOf x / 2 ^ 52 - 1 : ℕ) : ℤ) =
      ((UnpackedFloat.unpackExponent _).toNat : ℤ) - (1023 + 52)
    rw [exponent]
    omega

private theorem Unpacks.isNaN_iff {code : ℕ} {u : UnpackedFloat} (parts : Unpacks code u) :
    u.isNaN = true ↔ double.infinity < code := by
  cases parts with
  | nan above => simpa [UnpackedFloat.isNaN] using above
  | infinity same => simp [UnpackedFloat.isNaN, same]
  | zero same => simp [UnpackedFloat.isNaN, same]
  | finite nonzero below => simpa [UnpackedFloat.isNaN] using below.le

private theorem Unpacks.isFinite_iff {code : ℕ} {u : UnpackedFloat} (parts : Unpacks code u) :
    u.isFinite = true ↔ code < double.infinity := by
  cases parts with
  | nan above => simpa [UnpackedFloat.isFinite] using above.le
  | infinity same => simp [UnpackedFloat.isFinite, same]
  | zero same =>
    have positive : 0 < double.infinity := by decide
    simpa [UnpackedFloat.isFinite, same] using positive
  | finite nonzero below => simpa [UnpackedFloat.isFinite] using below

private theorem isNaN_iff : x.isNaN = true ↔ double.infinity < codeOf x := (unpacks x).isNaN_iff

theorem isFinite_iff : x.isFinite = true ↔ codeOf x < double.infinity := (unpacks x).isFinite_iff

/-- The parts that a double is made of give the magnitude of its code. -/
theorem magnitudeOf_eq (finite : x.isFinite = true) :
    magnitudeOf x = double.magnitude (codeOf x) := by
  rw [isFinite_iff] at finite
  have parts := unpacks x
  rw [magnitudeOf]
  generalize x.toModel.unpack = u at parts
  cases parts with
  | nan above => exact absurd finite above.not_gt
  | infinity same => exact absurd same finite.ne
  | zero same => rw [same, BinaryFormat.magnitude, double_decode]; simp
  | finite _ _ decoded => rw [BinaryFormat.magnitude, decoded]

/-- The sign of a double, which zeros, infinities and NaN have too. -/
def isNegative (x : Float) : Bool := decide (double.signBit ≤ x.toBits.toNat)

theorem toBits_eq (x : Float) :
    x.toBits.toNat = codeOf x + if isNegative x then double.signBit else 0 := by
  have bound : x.toBits.toNat < 2 ^ 64 := x.toBits.toNat_lt
  have sign : double.signBit = 2 ^ 63 := rfl
  rw [codeOf, isNegative, sign]
  split_ifs with negative
  · have := of_decide_eq_true negative
    omega
  · have := of_decide_eq_false (Bool.eq_false_of_not_eq_true negative)
    omega

theorem toFloat_of_bits {l : Literal} (same : l.bits .double = x.toBits.toNat) : l.toFloat = x := by
  rw [Literal.toFloat, same, UInt64.ofNat_toNat, Float.ofBits_toBits]

end Bits

section Texts

variable {x : Float}

theorem text_toList (x : Float) :
    (text x).toList = (Shown.ofBits .double x.toBits.toNat).ordinary := String.toList_ofList

/-- Exponents of finite numbers are far below the bound up to which they are read. -/
theorem natAbs_point_lt {code : ℕ} (positive : 0 < code) (finite : code < double.infinity) :
    ((Digits.ofDecimal (double.shortest code)).point - 1).natAbs < Decimal.exponentBound := by
  have digits := BinaryFormat.shortest_digits_pos positive finite
  have pos := Decimal.value_pos digits
  obtain ⟨-, low, high⟩ := BinaryFormat.shortest_between positive finite
  obtain ⟨least, greatest⟩ := BinaryFormat.log_magnitude_between positive finite
  have above := (Int.zpow_le_iff_le_log (b := 10) (by decide) pos).1 (by exact_mod_cast low)
  have below := (Int.lt_zpow_iff_log_lt (b := 10) (by decide) pos).1
    (lt_of_le_of_lt high (zpow_lt_zpow_right₀ (by norm_num) (Int.lt_succ _)))
  rw [Digits.point_ofDecimal digits, Decimal.exponentBound]
  omega

/-- The text of a finite double is a numeral with its sign and its code. -/
theorem exists_numeral (finite : x.isFinite = true) :
    ∃ n : Numeral, (text x).toList = n.written ∧
      (∀ e ∈ n.exponent, e.natAbs < Decimal.exponentBound) ∧ n.negative = isNegative x ∧
      n.decimal.nearest .double = codeOf x ∧
      (n.exponent.isSome = true ↔ magnitudeOf x ≠ 0 ∧
        ¬((10 : ℚ) ^ (-3 : ℤ) ≤ magnitudeOf x ∧ magnitudeOf x < (10 : ℚ) ^ (7 : ℤ))) := by
  have magnitude := magnitudeOf_eq finite
  rw [isFinite_iff] at finite
  have shown : Shown.ofBits .double x.toBits.toNat =
      if codeOf x = 0 then .zero (isNegative x)
      else .digits (isNegative x) (Digits.ofDecimal (double.shortest (codeOf x))) := by
    rw [Shown.ofBits]
    exact (if_neg finite.not_gt).trans (if_neg finite.ne)
  rw [text_toList, shown, magnitude]
  rcases Nat.eq_zero_or_pos (codeOf x) with zero | positive
  · have digit : Statement.RunOf Char.isDigit ['0'] := ⟨by simp, by simp⟩
    rw [if_pos zero, zero]
    refine ⟨⟨isNegative x, ['0'], ['0'], none, digit, digit⟩, rfl, by simp, rfl, rfl, ?_⟩
    have none : double.magnitude 0 = 0 := by rw [BinaryFormat.magnitude, double_decode]; simp
    simp [none]
  · rw [if_neg positive.ne']
    have digits := BinaryFormat.shortest_digits_pos positive finite
    obtain ⟨n, written, negative, value, exponent⟩ := exists_numeral_of_digits (isNegative x)
      (Digits.ofDecimal (double.shortest (codeOf x))) (Digits.runOf_ofDecimal digits)
    refine ⟨n, written, ?_, negative, ?_, ?_⟩
    · intro e mem
      rw [exponent] at mem
      split_ifs at mem
      · cases mem
      · cases mem
        exact natAbs_point_lt positive finite
    · rw [Digits.value_ofDecimal] at value
      rw [Decimal.nearest_double_congr value]
      exact (BinaryFormat.shortest_between positive finite).1
    · rw [and_iff_right (double.magnitude_pos positive).ne',
        ← BinaryFormat.isOrdinary_shortest positive finite, exponent]
      split_ifs with ordinary <;> simp [ordinary]

theorem toList_text_of_infinite (infinite : codeOf x = double.infinity) :
    (text x).toList = (Shown.infinity (isNegative x)).ordinary := by
  rw [text_toList, Shown.ofBits]
  exact congrArg Shown.ordinary
    ((if_neg (Nat.not_lt.2 infinite.le)).trans (if_pos infinite))

theorem toList_text_of_nan (above : double.infinity < codeOf x) :
    (text x).toList = Shown.nan.ordinary := by
  rw [text_toList, Shown.ofBits]
  exact congrArg Shown.ordinary (if_pos above)

/-- Doubles that are not finite are written in words. -/
theorem text_mem_words (infinite : x.isFinite = false) :
    text x ∈ ["NaN", "Infinity", "-Infinity"] := by
  rw [← Bool.not_eq_true, isFinite_iff, not_lt] at infinite
  rcases infinite.eq_or_lt with same | above
  · have words : ∀ negative, String.ofList (Shown.infinity negative).ordinary ∈
        ["NaN", "Infinity", "-Infinity"] := by decide
    rw [← String.ofList_toList (s := text x), toList_text_of_infinite same.symm]
    exact words _
  · rw [← String.ofList_toList (s := text x), toList_text_of_nan above]
    decide

private theorem readFloat?_text_of_infinite (infinite : codeOf x = double.infinity) :
    readFloat? (text x) = some x := by
  have reads : ∀ negative, Literal.read? (Shown.infinity negative).ordinary =
      some (.infinity negative) := by decide
  rw [readFloat?, toList_text_of_infinite infinite, reads, Option.map_some]
  refine congrArg some (toFloat_of_bits ?_)
  rw [Literal.bits, toBits_eq, infinite]

private theorem readFloat?_text_of_nan (above : double.infinity < codeOf x) :
    readFloat? (text x) = some x := by
  have reads : Literal.read? Shown.nan.ordinary = some .nan := by decide
  have only : x = Float.nan := by simpa using isNaN_iff.2 above
  have read : Literal.toFloat .nan = Float.nan := by decide +kernel
  rw [readFloat?, toList_text_of_nan above, reads, Option.map_some, read, only]

/-- Every double is read back from its text. -/
theorem readFloat?_text (x : Float) : readFloat? (text x) = some x := by
  rcases lt_trichotomy (codeOf x) double.infinity with finite | infinite | above
  · obtain ⟨n, written, bounded, negative, nearest, -⟩ := exists_numeral (isFinite_iff.2 finite)
    rw [readFloat?, written, n.read?_written bounded, Option.map_some]
    refine congrArg some (toFloat_of_bits ?_)
    rw [Literal.bits, nearest, negative, toBits_eq]
  · exact readFloat?_text_of_infinite infinite
  · exact readFloat?_text_of_nan above

/-- A literal without point and exponent is the double nearest to the integer that it writes. -/
theorem toFloat_whole (z : ℤ) :
    Literal.toFloat (.decimal (decide (z < 0)) ⟨z.natAbs, 0⟩) = floatOfInt z := by
  simp only [Literal.toFloat, Literal.bits, Decimal.nearest_whole, floatOfInt, decide_eq_true_eq]

/-- An integer is read from its text as the double nearest to it. -/
theorem readFloat?_toString (z : ℤ) : readFloat? (toString z) = some (floatOfInt z) := by
  have digits := runOf_toDigits z.natAbs
  have reads := literal_read?_signed (decide (z < 0)) digits []
  rw [List.append_nil, decimal_read?_digits digits, digitsValue_toDigits] at reads
  rw [readFloat?, toList_toString_int, reads, Option.map_some, Option.map_some, toFloat_whole]

end Texts

end MenuScript.Number
