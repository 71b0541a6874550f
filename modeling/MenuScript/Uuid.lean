/-! Identifiers of 128 bits, written as groups of hexadecimal digits. -/

namespace MenuScript

structure Uuid where
  value : BitVec 128
  deriving DecidableEq, Repr, Inhabited

namespace Uuid

def hexDigit? (c : Char) : Option Nat :=
  if c.isDigit then some (c.toNat - 48)
  else if 'a' ≤ c ∧ c ≤ 'f' then some (c.toNat - 87)
  else if 'A' ≤ c ∧ c ≤ 'F' then some (c.toNat - 55)
  else none

/-- Reads 32 hexadecimal digits in either case; dashes and enclosing braces are passed over. -/
def ofText? (s : String) : Option Uuid := do
  let digits ← (s.toList.filter fun c => c != '-' && c != '\x7b' && c != '\x7d').mapM hexDigit?
  if digits.length = 32 then
    some ⟨BitVec.ofNat 128 (digits.foldl (fun n d => 16 * n + d) 0)⟩
  else none

def hexDigits (width n : Nat) : List Char :=
  (List.range width).reverse.map fun i => Nat.digitChar (n / Nat.pow 16 i % 16)

/-- The text in lower case, with dashes between the groups. -/
def text (u : Uuid) : String :=
  let n := u.value.toNat
  String.ofList <| List.intercalate ['-']
    [hexDigits 8 (n / Nat.pow 16 24), hexDigits 4 (n / Nat.pow 16 20),
      hexDigits 4 (n / Nat.pow 16 16), hexDigits 4 (n / Nat.pow 16 12), hexDigits 12 n]

end Uuid

end MenuScript
