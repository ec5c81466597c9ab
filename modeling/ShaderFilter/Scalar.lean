import ShaderFilter.Value

/-!
# Scalars

What the three types of values have in common: extreme values, an order, and the ways in which an
action changes a current value.
-/

namespace ShaderFilter

open Number (Single Word)

/-- How an action combines its value with the current value of a parameter. -/
inductive Modification where
  /-- Adds the value; a truth value is toggled by true. -/
  | add
  /-- Multiplies by the value; a truth value is masked by it. -/
  | multiply
  /-- Puts the value in the place of the current one. -/
  | set
  deriving DecidableEq

namespace Modification

/-- The word for a modification. -/
def name : Modification → String
  | .add => "add"
  | .multiply => "multiply"
  | .set => "set"

/-- The title of a modification in messages. -/
def title : Modification → String
  | .add => "Add"
  | .multiply => "Multiply"
  | .set => "Set"

/-- The modification that a word stands for. -/
def read? : String → Option Modification :=
  Text.keyword? [("add", .add), ("multiply", .multiply), ("set", .set)]

end Modification

/-- A type of parameter values. -/
class Scalar (α : Type) where
  /-- The kind of the values. -/
  kind : Kind
  /-- The lower bound of a parameter that states none. -/
  least : α
  /-- The upper bound of a parameter that states none. -/
  greatest : α
  /-- The default of a parameter that states none. -/
  zero : α
  /-- Reads a value from a field. -/
  read? : String → Option α
  /-- Whether the first value is below the second one. -/
  less : α → α → Bool
  /-- The sum of the current value and that of an action. -/
  add : α → α → α
  /-- The product of the current value and that of an action. -/
  multiply : α → α → α
  /-- The value as a value of any kind. -/
  toValue : α → Value
  /-- The value of this type that a value of any kind is, if it is of this kind. -/
  ofValue? : Value → Option α

instance : Scalar Single where
  kind := .float
  least := Single.least
  greatest := Single.greatest
  zero := Single.zero
  read? := Single.read?
  less := Single.less
  add := Single.add
  multiply := Single.multiply
  toValue := .float
  ofValue?
    | .float x => some x
    | _ => none

instance : Scalar Word where
  kind := .int
  least := Word.least
  greatest := Word.greatest
  zero := Word.zero
  read? := Word.read?
  less := Word.less
  add := Word.add
  multiply := Word.multiply
  toValue := .int
  ofValue?
    | .int n => some n
    | _ => none

instance : Scalar Bool where
  kind := .bool
  least := false
  greatest := true
  zero := false
  read? := Value.readBool?
  less a b := !a && b
  add := xor
  multiply := and
  toValue := .bool
  ofValue?
    | .bool b => some b
    | _ => none

namespace Scalar

variable {α : Type} [Scalar α]

/-- `current` changed by the value of an action. -/
def modify (m : Modification) (current value : α) : α :=
  match m with
  | .add => add current value
  | .multiply => multiply current value
  | .set => value

/-- The bound that `x` exceeds, or `x` itself. The lower bound is looked at first, so it is the answer
where the bounds are inverted and `x` exceeds both. -/
def clamp (lower upper x : α) : α :=
  if less x lower then lower else if less upper x then upper else x

end Scalar

end ShaderFilter
