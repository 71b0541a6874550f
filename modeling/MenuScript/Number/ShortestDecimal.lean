import MenuScript.Number.DecimalLiteral

/-! The shortest decimal that reads back as a given magnitude, and how its digits are laid out
with a point. Every decimal produced here is checked by reading it, so that it reads back as the
number it stands for is a property of the search itself. -/

namespace MenuScript.Number

namespace BinaryFormat

def fraction (f : BinaryFormat) (code : Nat) : Nat × Nat :=
  let (m, q) := f.decode code
  (m * Nat.pow 2 q.toNat, Nat.pow 2 (-q).toNat)

def exactDecimal (f : BinaryFormat) (code : Nat) : Decimal :=
  let (m, q) := f.decode code
  if 0 ≤ q then ⟨m * Nat.pow 2 q.toNat, 0⟩ else ⟨m * Nat.pow 5 (-q).toNat, q⟩

/-- The number of digits before the point of `num / den`, or, below one, minus the number of
zeros that follow the point: the least `k` with `num / den < 10 ^ k`. -/
def decimalPoint (num den : Nat) : Int :=
  if den ≤ num then (Nat.toDigits 10 (num / den)).length
  else 1 - (Nat.toDigits 10 ((den - 1) / num)).length

/-- Of the two neighbours of `num / den` among the multiples of `10 ^ e`, the one that reads back
as `code`; of two such neighbours the nearer, and the upper one if both are equally near. -/
def neighbour? (f : BinaryFormat) (code num den : Nat) (e : Int) : Option Decimal :=
  let n := num * Nat.pow 10 (-e).toNat
  let d := den * Nat.pow 10 e.toNat
  let lower : Decimal := ⟨n / d, e⟩
  let upper : Decimal := ⟨n / d + 1, e⟩
  let nearer := if 2 * (n % d) < d then lower else upper
  [nearer, lower, upper].find? fun c => c.nearest f == code

/-- The decimal with the fewest digits that reads back as a positive finite `code`. -/
def shortest (f : BinaryFormat) (code : Nat) : Decimal :=
  let (num, den) := f.fraction code
  let point := decimalPoint num den
  ((List.range 17).findSome? fun (n : Nat) =>
    f.neighbour? code num den (point - (n + 1 : Nat))).getD (f.exactDecimal code)

end BinaryFormat

/-- Significant digits with the place of the point: `0.d₁d₂… * 10 ^ point`. -/
structure Digits where
  digits : List Char
  point : Int
  deriving DecidableEq, Repr

namespace Digits

/-- The digits of a decimal without the zeros at its end. -/
def ofDecimal (d : Decimal) : Digits :=
  let written := Nat.toDigits 10 d.digits
  ⟨Text.dropEndWhile (· == '0') written, d.exponent + written.length⟩

/-- Positional writing, with a point only if digits follow it. -/
def positional (d : Digits) : List Char :=
  let n := d.digits.length
  if d.point ≤ 0 then '0' :: '.' :: (List.replicate (-d.point).toNat '0' ++ d.digits)
  else if (n : Int) ≤ d.point then d.digits ++ List.replicate (d.point.toNat - n) '0'
  else d.digits.take d.point.toNat ++ '.' :: d.digits.drop d.point.toNat

def mantissa (d : Digits) : List Char :=
  match d.digits with
  | [] => ['0']
  | [first] => [first]
  | first :: rest => first :: '.' :: rest

end Digits

inductive Shown where
  | nan
  | infinity (negative : Bool)
  | zero (negative : Bool)
  | digits (negative : Bool) (shortest : Digits)

def Shown.ofBits (f : BinaryFormat) (bits : Nat) : Shown :=
  let negative := f.signBit ≤ bits
  let code := bits % f.signBit
  if f.infinity < code then .nan
  else if code = f.infinity then .infinity negative
  else if code = 0 then .zero negative
  else .digits negative (Digits.ofDecimal (f.shortest code))

def signed (negative : Bool) (s : List Char) : List Char := if negative then '-' :: s else s

/-- The plain text of a number: positional, `inf`, `NaN`. -/
def Shown.plain : Shown → List Char
  | .nan => "NaN".toList
  | .infinity negative => signed negative "inf".toList
  | .zero negative => signed negative ['0']
  | .digits negative d => signed negative d.positional

def plainText (x : Float) : String :=
  String.ofList (Shown.ofBits .double x.toBits.toNat).plain

def plainText32 (x : Float32) : String :=
  String.ofList (Shown.ofBits .single x.toBits.toNat).plain

end MenuScript.Number
