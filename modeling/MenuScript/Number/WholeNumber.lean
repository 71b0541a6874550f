import MenuScript.Number.DecimalLiteral

/-! Whole numbers in script text: an optional sign and decimal digits, within the range of the
type that is asked for. -/

namespace MenuScript.Number

def readNat? (s : List Char) : Option Nat :=
  if s.isEmpty || !s.all Char.isDigit then none else some (digitsValue s)

def readInt? : List Char → Option Int
  | '-' :: rest => (readNat? rest).map fun n => -(n : Int)
  | '+' :: rest => (readNat? rest).map fun n => (n : Int)
  | s => (readNat? s).map fun n => (n : Int)

def readInt64? (s : String) : Option Int64 :=
  (readInt? s.toList).bind fun n =>
    if Int64.minValue.toInt ≤ n ∧ n ≤ Int64.maxValue.toInt then some (Int64.ofInt n) else none

def readInt32? (s : String) : Option Int32 :=
  (readInt? s.toList).bind fun n =>
    if Int32.minValue.toInt ≤ n ∧ n ≤ Int32.maxValue.toInt then some (Int32.ofInt n) else none

end MenuScript.Number
