import ShaderFilter.Number.Shortest

/-!
# Number styles

Writing singles with the fewest digits that read back. A `Style` holds the decisions of one format;
there are two, that of messages and that of the exported documents.
-/

namespace ShaderFilter.Number

/-- The decisions of a format for numbers. -/
structure Style where
  /-- Which of two equally near decimals is chosen. -/
  tie : Tie
  /-- The exponents of the first digit for which the digits are written without an exponent. -/
  positional : Int → Bool
  /-- Whether a number without a fraction and without an exponent is written with the fraction `.0`. -/
  pointZero : Bool

/-- A decimal number: its significant digits, and the exponent of ten of the first one. -/
structure Scientific where
  /-- The digits, of which neither the first nor the last is a zero. -/
  digits : List Char
  /-- The exponent of the first digit. -/
  exponent : Int

/-- The decimal with the fewest digits for the magnitude of rank `r`. -/
def Scientific.ofRank (tie : Tie) (r : Nat) : Scientific :=
  let (coefficient, power) := (roundingInterval r).shortest tie
  let ds := Number.digits coefficient
  { digits := (ds.reverse.dropWhile (· == '0')).reverse
    exponent := power + (ds.length - 1 : Nat) - places }

namespace Style

/-- The digits without an exponent: with zeros up to the point where it lies outside of them. -/
def positionalText (y : Style) (s : Scientific) : List Char :=
  if s.exponent < 0 then
    ['0', '.'] ++ List.replicate (-s.exponent - 1).toNat '0' ++ s.digits
  else
    let whole := s.exponent.toNat + 1
    let fraction := s.digits.drop whole
    s.digits.take whole ++ List.replicate (whole - s.digits.length) '0' ++
      if fraction ≠ [] then '.' :: fraction else if y.pointZero then ['.', '0'] else []

/-- One digit, the others after a point, and the exponent with its sign. -/
def exponentText (s : Scientific) : List Char :=
  s.digits.take 1 ++ (if s.digits.drop 1 = [] then [] else '.' :: s.digits.drop 1) ++
    'e' :: (if s.exponent < 0 then '-' else '+') :: digits s.exponent.natAbs

/-- The text of the magnitude of rank `r`. -/
def magnitudeText (y : Style) (r : Nat) : List Char :=
  if r = 0 then if y.pointZero then ['0', '.', '0'] else ['0']
  else
    let s := Scientific.ofRank y.tie r
    if y.positional s.exponent then y.positionalText s else exponentText s

/-- The text of a finite single. -/
def finiteText (y : Style) (negative : Bool) (r : Nat) : String :=
  String.ofList (if negative then '-' :: y.magnitudeText r else y.magnitudeText r)

/-- The style of messages never has an exponent, and whole numbers have no fraction. -/
def message : Style := { tie := .up, positional := fun _ => true, pointZero := false }

/-- The style of documents has an exponent from `10 ^ 13` on and below `10 ^ -6`, and elsewhere
always a fraction. -/
def document : Style :=
  { tie := .even, positional := fun e => -6 ≤ e && e ≤ 12, pointZero := true }

end Style

/-- The text of a single in messages. -/
def Single.text : Single → String
  | .nan => "NaN"
  | .infinite true => "-inf"
  | .infinite false => "inf"
  | .finite s r => Style.message.finiteText s r

end ShaderFilter.Number
