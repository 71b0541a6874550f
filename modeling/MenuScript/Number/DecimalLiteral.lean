import MenuScript.Text
import MenuScript.Number.BinaryFormat

/-! Decimal literals: how a number is written in script text, and the floating-point number
nearest to it. A literal is an optional sign before digits with an optional point and exponent,
or before the words `inf`, `infinity` and `nan` in any letter case. -/

namespace MenuScript.Number

/-- The magnitude `digits * 10 ^ exponent`. -/
structure Decimal where
  digits : Nat
  exponent : Int
  deriving DecidableEq, Repr

def digitsValue (s : List Char) : Nat :=
  s.foldl (fun n c => 10 * n + (c.toNat - 48)) 0

/-- Digits that follow others move those up by their number of places. -/
theorem foldl_digits (a : Nat) (s : List Char) :
    s.foldl (fun n c => 10 * n + (c.toNat - 48)) a = a * Nat.pow 10 s.length + digitsValue s := by
  induction s generalizing a with
  | nil => simp [digitsValue]
  | cons c s ih =>
    rw [digitsValue, List.foldl_cons, List.foldl_cons, ih, ih (10 * 0 + _)]
    simp only [Nat.pow_eq, List.length_cons, Nat.pow_succ, Nat.add_mul]
    rw [Nat.mul_comm 10 a, Nat.mul_assoc, Nat.mul_comm 10]
    omega

theorem digitsValue_append (s t : List Char) :
    digitsValue (s ++ t) = digitsValue s * Nat.pow 10 t.length + digitsValue t := by
  rw [digitsValue, List.foldl_append, foldl_digits]
  rfl

/-- Value of a run of decimal digits that may be long: it is put together from halves, down to the
given number of halvings. -/
def longDigitsValue : Nat → List Char → Nat
  | 0, s => digitsValue s
  | depth + 1, s =>
    if s.length < 64 then digitsValue s
    else
      let low := s.length / 2
      longDigitsValue depth (s.take (s.length - low)) * Nat.pow 10 low
        + longDigitsValue depth (s.drop (s.length - low))

theorem longDigitsValue_eq (depth : Nat) (s : List Char) :
    longDigitsValue depth s = digitsValue s := by
  induction depth generalizing s with
  | zero => rfl
  | succ depth ih =>
    rw [longDigitsValue]
    split
    · rfl
    · simp only [ih]
      conv => rhs; rw [← List.take_append_drop (s.length - s.length / 2) s]
      rw [digitsValue_append, List.length_drop]
      congr 3
      omega

namespace Decimal

/-- Powers of ten beyond this one are out of the range of every format in use. -/
def largestPower : Nat := 400

/-- The code nearest to the decimal. Exponents that put the decimal beyond the format's range
are settled without computing the power. -/
def nearest (f : BinaryFormat) (d : Decimal) : Nat :=
  if d.digits = 0 then 0
  else if (largestPower : Int) < d.exponent then f.infinity
  else if d.exponent < -((largestPower + Nat.log2 d.digits : Nat) : Int) then 0
  else f.nearest (d.digits * Nat.pow 10 d.exponent.toNat) (Nat.pow 10 (-d.exponent).toNat)

theorem nearest_whole (f : BinaryFormat) (n : Nat) : nearest f ⟨n, 0⟩ = f.nearest n 1 := by
  by_cases zero : n = 0
  · simp [nearest, BinaryFormat.nearest, zero]
  · have near : ¬(largestPower : Int) < 0 := by decide
    have far : ¬(0 : Int) < -((largestPower + Nat.log2 n : Nat) : Int) := by omega
    rw [nearest, if_neg zero, if_neg near, if_neg far]
    simp

/-- An exponent takes up further digits only while it is below this bound. -/
def exponentBound : Nat := 65536

/-- Value of the digits of an exponent, of which those behind a value that has reached the bound do
not count. -/
def exponentValue (s : List Char) : Nat :=
  s.foldl (fun n c => if n < exponentBound then 10 * n + (c.toNat - 48) else n) 0

/-- Reads an exponent: a mark, an optional sign and digits. Nothing at all is exponent zero. -/
def readExponent? : List Char → Option Int
  | [] => some 0
  | mark :: rest =>
    if mark = 'e' ∨ mark = 'E' then
      let (negative, digits) := match rest with
        | '-' :: digits => (true, digits)
        | '+' :: digits => (false, digits)
        | digits => (false, digits)
      if digits.isEmpty || !digits.all Char.isDigit then none
      else some (if negative then -(exponentValue digits : Int) else exponentValue digits)
    else none

/-- Halvings with which the value of digits is computed, enough for every text that fits into
memory. -/
def halvings : Nat := 64

/-- Reads digits with an optional point and exponent; at least one digit stands before the
exponent. -/
def read? (s : List Char) : Option Decimal :=
  let whole := s.takeWhile Char.isDigit
  let (fraction, rest) := match s.dropWhile Char.isDigit with
    | '.' :: rest => (rest.takeWhile Char.isDigit, rest.dropWhile Char.isDigit)
    | rest => ([], rest)
  if whole.isEmpty && fraction.isEmpty then none
  else
    (readExponent? rest).map fun e =>
      ⟨longDigitsValue halvings (whole ++ fraction), e - fraction.length⟩

end Decimal

inductive Literal where
  | nan
  | infinity (negative : Bool)
  | decimal (negative : Bool) (magnitude : Decimal)
  deriving DecidableEq, Repr

namespace Literal

def readUnsigned? (negative : Bool) (s : List Char) : Option Literal :=
  if Text.sameLetters s "inf".toList || Text.sameLetters s "infinity".toList then
    some (.infinity negative)
  else if Text.sameLetters s "nan".toList then some .nan
  else (Decimal.read? s).map (.decimal negative)

def read? : List Char → Option Literal
  | '-' :: rest => readUnsigned? true rest
  | '+' :: rest => readUnsigned? false rest
  | s => readUnsigned? false s

def bits (f : BinaryFormat) : Literal → Nat
  | .nan => f.infinity + Nat.pow 2 (f.fractionBits - 1)
  | .infinity negative => f.infinity + (if negative then f.signBit else 0)
  | .decimal negative d => d.nearest f + (if negative then f.signBit else 0)

def toFloat (l : Literal) : Float := Float.ofBits (UInt64.ofNat (l.bits .double))

def toFloat32 (l : Literal) : Float32 := Float32.ofBits (UInt32.ofNat (l.bits .single))

end Literal

def readFloat? (s : String) : Option Float := (Literal.read? s.toList).map Literal.toFloat

def readFloat32? (s : String) : Option Float32 := (Literal.read? s.toList).map Literal.toFloat32

end MenuScript.Number
