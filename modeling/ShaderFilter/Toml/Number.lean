import ShaderFilter.Number.Digits
import ShaderFilter.Toml.Reader

/-!
# Numbers and times of TOML

Integers of 64 bits in four bases, floating-point numbers, dates and times.
-/

namespace ShaderFilter.Toml.Reader

open ShaderFilter.Number (digitsValue signed)

/-! ### Digits -/

/-- Takes digits of a class with single underscores between them. Gives the digits. -/
def digitRun (p : Char → Bool) : Reader (List Char) := do
  let first ← one p
  let others ← many do
    match ← peek with
    | some '_' => discard next; return some (← one p)
    | some c => if p c then return some (← next) else return none
    | none => return none
  return first :: others

/-- Takes a decimal integer: an optional sign, and digits of which the first is a zero only if it is the
only one. Gives whether it is negative, and the digits. -/
def decimal : Reader (Bool × List Char) := do
  let negative ← accept "-"
  unless negative do discard (accept "+")
  if ← accept "0" then return (negative, ['0'])
  return (negative, ← digitRun Char.isDigit)

/-- An integer in the range of 64 bits. -/
def inRange (n : Int) : Reader Value :=
  if -9223372036854775808 ≤ n ∧ n ≤ 9223372036854775807 then pure (.integer n) else failure

/-- The value of a digit string in a base. -/
def valueIn (base : Nat) (cs : List Char) : Nat :=
  cs.foldl (fun n c => base * n + (hexValue? c).getD 0) 0

/-- Takes an integer in a base other than ten after its mark. -/
def basedInteger (base : Nat) : Reader Value := do
  let digits ← digitRun fun c => match hexValue? c with
    | some d => d < base
    | none => false
  inRange (valueIn base digits)

/-! ### Floating-point numbers -/

/-- The midpoint between the greatest finite number of 64 bits and the next power of two. -/
def overflowLimit : Nat := (Nat.pow 2 54 - 1) * Nat.pow 2 970

/-- Whether `coefficient * 10 ^ exponent` is rounded to infinity in 64 bits. Exponents far outside the
range are decided without computing the power. -/
def overflows (coefficient : Nat) (exponent : Int) : Bool :=
  if coefficient = 0 then false
  else if 400 < exponent then true
  else if 0 ≤ exponent then overflowLimit ≤ coefficient * Nat.pow 10 exponent.toNat
  else if exponent + coefficient.log2 < 0 then false
  else overflowLimit * Nat.pow 10 (-exponent).toNat ≤ coefficient

/-- Takes an exponent after its mark. -/
def exponent : Reader Int := do
  let negative ← accept "-"
  unless negative do discard (accept "+")
  return signed negative (digitsValue (← digitRun Char.isDigit))

/-- Takes an exponent, if one is next. -/
def exponent? : Reader (Option Int) := do
  match ← peek with
  | some 'e' | some 'E' => discard next; return some (← exponent)
  | _ => return none

/-- Takes a decimal number. Without fraction and exponent it is an integer; a positive floating-point
number must not overflow. -/
def decimalNumber : Reader Value := do
  let (negative, whole) ← decimal
  let fraction ← if ← accept "." then some <$> digitRun Char.isDigit else pure none
  let exponent ← exponent?
  if fraction.isNone ∧ exponent.isNone then return ← inRange (signed negative (digitsValue whole))
  let digits := fraction.getD []
  if !negative && overflows (digitsValue (whole ++ digits)) (exponent.getD 0 - digits.length) then
    failure
  return .float (String.ofList (whole ++ '.' :: digits))

/-- Takes a number. -/
def number : Reader Value := do
  if ← accept "0x" then return ← basedInteger 16
  if ← accept "0o" then return ← basedInteger 8
  if ← accept "0b" then return ← basedInteger 2
  for literal in ["inf", "+inf", "-inf", "nan", "+nan", "-nan"] do
    if ← accept literal then return .float literal
  decimalNumber

/-! ### Dates and times -/

/-- Takes `n` digits whose value lies between two limits. -/
def field (n low high : Nat) : Reader Nat := do
  let cs := (← get).take n
  if cs.length = n ∧ cs.all Char.isDigit ∧ low ≤ digitsValue cs ∧ digitsValue cs ≤ high then
    set ((← get).drop n)
    pure (digitsValue cs)
  else failure

/-- The number of days of a month. -/
def daysOf (year month : Nat) : Nat :=
  if month = 2 then if year % 4 = 0 ∧ (year % 100 ≠ 0 ∨ year % 400 = 0) then 29 else 28
  else if month ∈ [4, 6, 9, 11] then 30
  else 31

/-- Takes a date. -/
def date : Reader Unit := do
  let year ← field 4 0 9999
  expect "-"
  let month ← field 2 1 12
  expect "-"
  discard (field 2 1 (daysOf year month))

/-- Takes a time of day. -/
def time : Reader Unit := do
  discard (field 2 0 23)
  expect ":"
  discard (field 2 0 59)
  expect ":"
  discard (field 2 0 60)
  if ← accept "." then
    let digits ← takeAll Char.isDigit
    if digits = [] then failure

/-- Takes the distance from universal time, if it is next. -/
def offset : Reader Unit := do
  if ← accept "Z" then return
  if ← accept "z" then return
  match ← peek with
  | some '+' | some '-' =>
    discard next
    discard (field 2 0 23)
    expect ":"
    discard (field 2 0 59)
  | _ => return

/-- Whether a text starts with `n` digits and the character `c`. -/
def startsWithDigits (n : Nat) (c : Char) (cs : List Char) : Bool :=
  (cs.take n).length = n && (cs.take n).all Char.isDigit && (cs.drop n).head? == some c

/-- Takes the time after a date, if it is next: after a letter, or after a space that is not the end. -/
def timeAfterDate : Reader Unit := do
  match ← get with
  | c :: rest =>
    if (c = 'T' ∨ c = 't' ∨ c = ' ') ∧ startsWithDigits 2 ':' rest then
      discard next
      time
      offset
  | [] => pure ()

/-- Takes a date, a time, or both, if it is next. -/
def dateTime? : Reader (Option Value) := do
  let start ← get
  if startsWithDigits 4 '-' start then
    date
    timeAfterDate
  else if startsWithDigits 2 ':' start then time
  else return none
  return some (.dateTime (String.ofList (start.take (start.length - (← get).length))))

end ShaderFilter.Toml.Reader
