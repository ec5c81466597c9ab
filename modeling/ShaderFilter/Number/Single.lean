import ShaderFilter.Number.Digits
import ShaderFilter.Text.Blank

/-!
# Singles

Floating-point numbers of 32 bits with 24 significant bits.

## The model

The finite magnitudes are numbered in increasing order from zero: the number with rank `r` has the
magnitude `magnitude r`, a natural number of units of `2 ^ -149`. So all arithmetic is exact
arithmetic on natural numbers, followed by one rounding to the nearest rank, ties to the even one.
A single is a sign and a rank, an infinity, or not a number; the two zeros differ by their sign.
-/

namespace ShaderFilter.Number

/-- The number of finite magnitudes, `255 * 2 ^ 23`. -/
def rankLimit : Nat := 2139095040

/-- A floating-point number of 32 bits. -/
inductive Single where
  /-- Not a number. -/
  | nan
  /-- An infinity. -/
  | infinite (negative : Bool)
  /-- A finite number, by its sign and the rank of its magnitude. -/
  | finite (negative : Bool) (rank : Fin rankLimit)
  deriving DecidableEq

namespace Single

/-! ### Magnitudes and rounding -/

/-- The number of magnitudes with the same spacing, `2 ^ 23`. -/
def scaleSize : Nat := 8388608

/-- The spacing of the magnitudes from rank `r` upwards is `2 ^ scale r` units. -/
def scale (r : Nat) : Nat := r / scaleSize - 1

/-- The significand of rank `r`: below `scaleSize` for the smallest magnitudes only. -/
def significand (r : Nat) : Nat := if r < scaleSize then r else scaleSize + r % scaleSize

/-- The magnitude of rank `r` in units of `2 ^ -149`. -/
def magnitude (r : Nat) : Nat := significand r * Nat.pow 2 (scale r)

/-- The number of units that make one, `2 ^ 149`. -/
def unitsPerOne : Nat := Nat.pow 2 149

/-- `num / den` rounded to the nearest natural number, a half to the even neighbour. -/
def roundHalfEven (num den : Nat) : Nat :=
  let q := num / den
  let twice := 2 * (num % den)
  if twice < den then q else if den < twice then q + 1 else q + q % 2

/-- The rank nearest to `num / den` units. It may be `rankLimit` or more, where no finite magnitude is
near. -/
def nearestRank (num den : Nat) : Nat :=
  let shift := (num / den).log2 - 23
  shift * scaleSize + roundHalfEven num (den * Nat.pow 2 shift)

/-- The single nearest to `num / den` units, with a sign. -/
def round (negative : Bool) (num den : Nat) : Single :=
  let r := nearestRank num den
  if h : r < rankLimit then .finite negative ⟨r, h⟩ else .infinite negative

/-! ### Constants -/

/-- The zero with a sign. -/
def signedZero (negative : Bool) : Single := .finite negative ⟨0, by decide⟩

/-- The positive zero. -/
def zero : Single := signedZero false

/-- The greatest finite single. -/
def greatest : Single := .finite false ⟨rankLimit - 1, by decide⟩

/-- The least finite single. -/
def least : Single := .finite true ⟨rankLimit - 1, by decide⟩

/-! ### Arithmetic -/

/-- The sum. Opposite infinities have none; opposite equal numbers add up to the positive zero. -/
def add : Single → Single → Single
  | .nan, _ => .nan
  | _, .nan => .nan
  | .infinite s, .infinite t => if s = t then .infinite s else .nan
  | .infinite s, .finite _ _ => .infinite s
  | .finite _ _, .infinite t => .infinite t
  | .finite s a, .finite t b =>
    let sum := signed s (magnitude a) + signed t (magnitude b)
    if sum = 0 then signedZero (s && t) else round (sum < 0) sum.natAbs 1

/-- The product. Zero times an infinity has none. -/
def multiply : Single → Single → Single
  | .nan, _ => .nan
  | _, .nan => .nan
  | .infinite s, .infinite t => .infinite (s != t)
  | .infinite s, .finite t b => if b.val = 0 then .nan else .infinite (s != t)
  | .finite s a, .infinite t => if a.val = 0 then .nan else .infinite (s != t)
  | .finite s a, .finite t b => round (s != t) (magnitude a * magnitude b) unitsPerOne

/-- The place of a single in the order of the numbers, the same for both zeros. -/
def place? : Single → Option Int
  | .nan => none
  | .infinite s => some (signed s rankLimit)
  | .finite s r => some (signed s r)

/-- Whether `a` is below `b`; false if one of them is not a number. -/
def less (a b : Single) : Bool :=
  match place? a, place? b with
  | some x, some y => x < y
  | _, _ => false

/-! ### Reading -/

/-- The single nearest to `coefficient * 10 ^ exponent`. Exponents far outside the range are decided
without computing the power. -/
def ofDecimal (negative : Bool) (coefficient : Nat) (exponent : Int) : Single :=
  if coefficient = 0 then signedZero negative
  else if 50 < exponent then .infinite negative
  else if exponent + coefficient.log2 < -60 then signedZero negative
  else if 0 ≤ exponent then round negative (coefficient * Nat.pow 10 exponent.toNat * unitsPerOne) 1
  else round negative (coefficient * unitsPerOne) (Nat.pow 10 (-exponent).toNat)

/-- Splits off the digits after a point, if there is a point. -/
def splitFraction : List Char → List Char × List Char
  | '.' :: cs => (cs.takeWhile Char.isDigit, cs.dropWhile Char.isDigit)
  | cs => ([], cs)

/-- Reads what may follow the digits: nothing, or an exponent. -/
def exponent? : List Char → Option Int
  | [] => some 0
  | c :: cs => if c = 'e' ∨ c = 'E' then integer? cs else none

/-- Reads an unsigned number: digits with at most one point, at least one digit, and an optional
exponent. -/
def unsigned? (negative : Bool) (cs : List Char) : Option Single := do
  let whole := cs.takeWhile Char.isDigit
  let (fraction, rest) := splitFraction (cs.dropWhile Char.isDigit)
  let exponent ← exponent? rest
  if whole = [] ∧ fraction = [] then none
  else some (ofDecimal negative (digitsValue (whole ++ fraction)) (exponent - fraction.length))

/-- Reads a signed or unsigned number, or one of the words for an infinity and for no number in any
case of letters. -/
def literal? (cs : List Char) : Option Single :=
  let (negative, body) := splitSign cs
  let word := body.map Char.toLower
  if word = ['i', 'n', 'f'] ∨ word = ['i', 'n', 'f', 'i', 'n', 'i', 't', 'y'] then
    some (.infinite negative)
  else if word = ['n', 'a', 'n'] then some .nan
  else unsigned? negative body

/-- Reads a single, with blanks around it. -/
def read? (s : String) : Option Single := literal? (Text.strip Text.isBlank s.toList)

instance : Inhabited Single := ⟨zero⟩

end Single

end ShaderFilter.Number
