import MenuScript.Statement.Reader
import MenuScript.Value

/-! Conditions of `if` lines. A condition is a comparison of two operands, or else a literal. The
comparisons are tried in a fixed order, each at the last place where its sign stands between
white space; the first one that can decide does. -/

namespace MenuScript

inductive Comparison where
  | equal
  | unequal
  | greater
  | less
  | atLeast
  | atMost
  deriving DecidableEq, Repr

namespace Comparison

def sign : Comparison → String
  | .equal => "=="
  | .unequal => "!="
  | .greater => ">"
  | .less => "<"
  | .atLeast => ">="
  | .atMost => "<="

/-- The comparisons in the order in which they are tried. -/
def inOrder : List Comparison := [equal, unequal, greater, less, atLeast, atMost]

/-- Decides on two operands; an order is decided only between numbers. -/
def decide? (c : Comparison) (left right : List Char) : Option Bool :=
  let numbers (order : Float → Float → Bool) : Option Bool := do
    let x ← Number.readFloat? (String.ofList left)
    let y ← Number.readFloat? (String.ofList right)
    return order x y
  match c with
  | .equal => some (left == right)
  | .unequal => some (left != right)
  | .greater => numbers fun x y => y < x
  | .less => numbers fun x y => x < y
  | .atLeast => numbers fun x y => y ≤ x
  | .atMost => numbers fun x y => x ≤ y

end Comparison

namespace Condition

/-- The operands, if `sign` stands between white space at the start of `s`. The text before it is
given newest character first. Operands are not empty and have no line feed. -/
def operandsHere? (sign before s : List Char) : Option (List Char × List Char) := do
  let behind ← Statement.after? sign s
  if before.head?.any Text.isSpace && behind.head?.any Text.isSpace then
    let left := (before.dropWhile Text.isSpace).reverse
    let right := behind.dropWhile Text.isSpace
    if left.isEmpty || right.isEmpty || left.contains '\n' || right.contains '\n' then none
    else some (left, right)
  else none

/-- The operands at the last place where `sign` stands between white space. -/
def lastOperands? (sign before : List Char) : List Char → Option (List Char × List Char)
  | [] => none
  | c :: rest =>
    match lastOperands? sign (c :: before) rest with
    | some operands => some operands
    | none => operandsHere? sign before (c :: rest)

/-- The decision of one comparison on a trimmed text, if it has its sign and can decide. -/
def decide? (s : List Char) (c : Comparison) : Option Bool := do
  let (left, right) ← lastOperands? c.sign.toList [] s
  c.decide? left right

def holds (text : String) : Bool :=
  let s := Text.trim text.toList
  match Comparison.inOrder.findSome? (decide? s) with
  | some b => b
  | none => isTruthyLiteral (String.ofList s)

end Condition

end MenuScript
