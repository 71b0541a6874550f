/-! Binary floating-point formats and exact rounding to them. A finite magnitude is held as its
code: the exponent field above the fraction field, which is how the magnitude stands in the low
bits of the encoded number. Codes are ordered as the magnitudes are, and rounding needs natural
number arithmetic only. -/

namespace MenuScript.Number

/-- A binary format, given by the widths of its fraction and exponent fields. -/
structure BinaryFormat where
  fractionBits : Nat
  exponentBits : Nat
  deriving DecidableEq, Repr

namespace BinaryFormat

def double : BinaryFormat := ⟨52, 11⟩

def single : BinaryFormat := ⟨23, 8⟩

/-- Exponent of the unit in which the smallest magnitudes are counted. -/
def leastExponent (f : BinaryFormat) : Int :=
  3 - (Nat.pow 2 (f.exponentBits - 1) : Nat) - (f.fractionBits + 1 : Nat)

/-- The code of infinity, which is above every finite code. -/
def infinity (f : BinaryFormat) : Nat := (Nat.pow 2 f.exponentBits - 1) * Nat.pow 2 f.fractionBits

def signBit (f : BinaryFormat) : Nat := Nat.pow 2 (f.fractionBits + f.exponentBits)

/-- Significand and exponent of a finite code: the magnitude is `m * 2 ^ q`. -/
def decode (f : BinaryFormat) (code : Nat) : Nat × Int :=
  let field := code / Nat.pow 2 f.fractionBits
  let fraction := code % Nat.pow 2 f.fractionBits
  if field = 0 then (fraction, f.leastExponent)
  else (Nat.pow 2 f.fractionBits + fraction, f.leastExponent + (field - 1 : Nat))

/-- The natural number nearest to `num / den`; a half goes to the even neighbour. -/
def roundQuotient (num den : Nat) : Nat :=
  let q := num / den
  let r := num % den
  if 2 * r < den then q else if den < 2 * r then q + 1 else q + q % 2

/-- The greatest `e` with `2 ^ e ≤ num / den`, for positive `num` and `den`. -/
def floorLog (num den : Nat) : Int :=
  let guess : Int := (Nat.log2 num : Int) - (Nat.log2 den : Int)
  if den * Nat.pow 2 guess.toNat ≤ num * Nat.pow 2 (-guess).toNat then guess else guess - 1

/-- Exponent of the unit in the last place for magnitudes around `num / den`. -/
def unitExponent (f : BinaryFormat) (num den : Nat) : Int :=
  max (floorLog num den - f.fractionBits) f.leastExponent

/-- The code of the magnitude nearest to `num / den`, a tie going to the even code; what is too
large becomes infinity. -/
def nearest (f : BinaryFormat) (num den : Nat) : Nat :=
  if num = 0 then 0
  else
    let q := f.unitExponent num den
    let m := roundQuotient (num * Nat.pow 2 (-q).toNat) (den * Nat.pow 2 q.toNat)
    min ((q - f.leastExponent).toNat * Nat.pow 2 f.fractionBits + m) f.infinity

end BinaryFormat

/-- The double nearest to an integer: its magnitude is rounded, and its sign is kept. -/
def floatOfInt (n : Int) : Float :=
  let sign := if n < 0 then BinaryFormat.double.signBit else 0
  Float.ofBits (UInt64.ofNat (BinaryFormat.double.nearest n.natAbs 1 + sign))

end MenuScript.Number
