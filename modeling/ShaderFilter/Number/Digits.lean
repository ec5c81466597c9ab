/-!
# Digit strings

Reading and writing whole numbers in decimal notation.
-/

namespace ShaderFilter.Number

/-- The value of a decimal digit. -/
def digitValue (c : Char) : Nat := c.toNat - '0'.toNat

/-- The value of a string of decimal digits. -/
def digitsValue (cs : List Char) : Nat := cs.foldl (fun n c => 10 * n + digitValue c) 0

/-- Splits a leading sign off: whether it is a minus, and the rest. -/
def splitSign : List Char → Bool × List Char
  | '-' :: cs => (true, cs)
  | '+' :: cs => (false, cs)
  | cs => (false, cs)

/-- `n` or its negative. -/
def signed (negative : Bool) (n : Nat) : Int := if negative then -n else n

/-- Reads an integer: at most one sign, then one or more digits. -/
def integer? (cs : List Char) : Option Int :=
  let (negative, ds) := splitSign cs
  if ds ≠ [] ∧ ds.all Char.isDigit then some (signed negative (digitsValue ds)) else none

/-- The decimal digits of `n`. -/
def digits (n : Nat) : List Char := Nat.toDigits 10 n

/-- The decimal notation of an integer. -/
def integerText (n : Int) : String :=
  String.ofList (if n < 0 then '-' :: digits n.natAbs else digits n.natAbs)

end ShaderFilter.Number
