import MenuScript.Number.ShortestDecimal
import MenuScript.Number.WholeNumber

/-! Values of scripts: what variables hold, what lines yield and what functions take. Each value
has a text, which placeholders insert, and readings as a number and as a truth value. -/

namespace MenuScript

/-- A value held in a variable, on the data stack, or yielded by a line. -/
inductive Value where
  | string (text : String)
  | integer (n : Int64)
  | number (x : Float)
  | bool (b : Bool)
  | null
  deriving Inhabited

namespace Number

/-- Where the point of a positional number may stand: magnitudes from a thousandth up to, and not
including, ten million. -/
def Digits.isOrdinary (d : Digits) : Bool := -2 ≤ d.point && d.point ≤ 7

def withFraction (s : List Char) : List Char :=
  if s.contains '.' then s else s ++ ".0".toList

/-- How scripts see a number: ordinary magnitudes positionally, all others with an exponent. -/
def Shown.ordinary : Shown → List Char
  | .nan => "NaN".toList
  | .infinity negative => signed negative "Infinity".toList
  | .zero negative => signed negative "0.0".toList
  | .digits negative d =>
    signed negative <|
      if d.isOrdinary then withFraction d.positional
      else withFraction d.mantissa ++ 'E' :: (toString (d.point - 1)).toList

def text (x : Float) : String :=
  String.ofList (Shown.ofBits .double x.toBits.toNat).ordinary

end Number

/-- Whether a literal condition text is true: `true` or `yes` in any letter case, or `1`. -/
def isTruthyLiteral (s : String) : Bool := sameText s "true" || sameText s "yes" || s == "1"

namespace Value

/-- The text that placeholders and comparisons see. -/
def text : Value → String
  | .string s => s
  | .integer n => toString n.toInt
  | .number x => Number.text x
  | .bool b => if b then "true" else "false"
  | .null => ""

/-- The numeric reading; a text is read without the white space around it. -/
def number? : Value → Option Float
  | .string s => Number.readFloat? (trimmed s)
  | .integer n => some (Number.floatOfInt n.toInt)
  | .number x => some x
  | .bool b => some (if b then 1.0 else 0.0)
  | .null => none

def isTrue : Value → Bool
  | .string s => isTruthyLiteral s
  | .integer n => n != 0
  | .number x => x != 0.0
  | .bool b => b
  | .null => false

def isNull : Value → Bool
  | .null => true
  | _ => false

def kind : Value → String
  | .string _ => "string"
  | .integer _ => "integer"
  | .number _ => "number"
  | .bool _ => "bool"
  | .null => "null"

/-- Same kind and same content; numbers are compared as numbers, so zeros of either sign are
equal and NaN equals nothing. -/
def same : Value → Value → Bool
  | .string s, .string t => s == t
  | .integer n, .integer k => n == k
  | .number x, .number y => x == y
  | .bool a, .bool b => a == b
  | .null, .null => true
  | _, _ => false

instance : BEq Value := ⟨same⟩

def joined (values : List Value) : String := spaced (values.map text)

end Value

end MenuScript
