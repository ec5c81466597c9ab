import ShaderFilter.Number.Style
import ShaderFilter.Number.Word
import ShaderFilter.Text.Keyword

/-!
# Values

The value of a parameter is a single, a word or a truth value.
-/

namespace ShaderFilter

open Number (Single Word)

/-- The kinds of parameters. -/
inductive Kind where
  /-- Floating-point numbers. -/
  | float
  /-- Whole numbers. -/
  | int
  /-- Truth values. -/
  | bool
  deriving DecidableEq

namespace Kind

/-- The word for a kind. -/
def name : Kind → String
  | .float => "float"
  | .int => "int"
  | .bool => "bool"

/-- The kind that a word stands for. -/
def read? : String → Option Kind :=
  Text.keyword? [("float", .float), ("int", .int), ("bool", .bool)]

end Kind

/-- A value of any kind. -/
inductive Value where
  /-- A value of a float parameter. -/
  | float (x : Single)
  /-- A value of an int parameter. -/
  | int (n : Word)
  /-- A value of a bool parameter. -/
  | bool (b : Bool)
  deriving DecidableEq

namespace Value

/-- The kind of a value. -/
def kind : Value → Kind
  | .float _ => .float
  | .int _ => .int
  | .bool _ => .bool

/-- The text of a truth value. -/
def boolText (b : Bool) : String := if b then "true" else "false"

/-- The text of a value in messages. -/
def text : Value → String
  | .float x => x.text
  | .int n => n.text
  | .bool b => boolText b

/-- Reads a truth value, in any case of letters and without blanks. -/
def readBool? : String → Option Bool := Text.keyword? [("true", true), ("false", false)]

/-- Reads a value of a kind. -/
def read? (k : Kind) (field : String) : Option Value :=
  match k with
  | .float => (Single.read? field).map .float
  | .int => (Word.read? field).map .int
  | .bool => (readBool? field).map .bool

end Value

end ShaderFilter
