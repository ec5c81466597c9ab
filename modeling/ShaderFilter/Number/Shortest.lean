import ShaderFilter.Number.Single

/-!
# Shortest decimals

Every finite single is a whole number of units of `10 ^ -151`, and so are the midpoints between
neighbouring singles. The decimals that read back as a given single form an interval around it; among
them the one with the fewest digits is chosen, and of those the nearest.
-/

namespace ShaderFilter.Number

/-- Which of two equally near decimals is chosen. -/
inductive Tie where
  /-- The greater one. -/
  | up
  /-- The one with an even last digit. -/
  | even
  deriving DecidableEq

/-- The decimals that are rounded to `value`: those between `low` and `high`, ends included if
`closed`. -/
structure Interval where
  /-- The lower end. -/
  low : Nat
  /-- The number that the interval belongs to. -/
  value : Nat
  /-- The upper end. -/
  high : Nat
  /-- Whether the ends belong to the interval. -/
  closed : Bool

namespace Interval

/-- Whether `n` is in the interval. -/
def contains (i : Interval) (n : Nat) : Bool :=
  if i.closed then i.low ≤ n && n ≤ i.high else i.low < n && n < i.high

/-- The nearer of `c` and `c + 1` on the grid of multiples of `step`, of which both are in the
interval. -/
def nearer (i : Interval) (tie : Tie) (step c : Nat) : Nat :=
  let below := i.value - c * step
  let above := (c + 1) * step - i.value
  if below < above then c
  else if above < below then c + 1
  else match tie with
    | .up => c + 1
    | .even => c + c % 2

/-- The multiple of `step` in the interval that is nearest to its value. -/
def onGrid? (i : Interval) (tie : Tie) (step : Nat) : Option Nat :=
  let c := i.value / step
  match i.contains (c * step), i.contains ((c + 1) * step) with
  | true, true => some (i.nearer tie step c)
  | true, false => some c
  | false, true => some (c + 1)
  | false, false => none

/-- Tries the grids of multiples of `10 ^ k`, coarse before fine. Gives the coefficient and the power. -/
def search (i : Interval) (tie : Tie) : Nat → Nat × Nat
  | 0 => (i.value, 0)
  | k + 1 => match i.onGrid? tie (Nat.pow 10 (k + 1)) with
    | some c => (c, k + 1)
    | none => search i tie k

/-- The decimal with the fewest digits in the interval. -/
def shortest (i : Interval) (tie : Tie) : Nat × Nat :=
  i.search tie ((digits i.value).length - 1)

end Interval

/-- The decimal places that are enough to write every single and every midpoint exactly. -/
def places : Nat := 151

/-- The decimals that are rounded to the magnitude of rank `r`, in units of `10 ^ -places`. Below the
least significand of a scale the spacing is half of that above it. -/
def roundingInterval (r : Nat) : Interval :=
  let quarter := Nat.pow 5 places
  let up := Nat.pow 2 (Single.scale r)
  let down := if Single.significand r = Single.scaleSize ∧ 0 < Single.scale r then up else 2 * up
  let value := 4 * Single.magnitude r
  { low := (value - down) * quarter
    value := value * quarter
    high := (value + 2 * up) * quarter
    closed := Single.significand r % 2 = 0 }

end ShaderFilter.Number
