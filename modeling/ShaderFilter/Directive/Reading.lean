import ShaderFilter.Definition
import ShaderFilter.Directive.Error
import ShaderFilter.Text.Fields

/-!
# Reading fields

What the fields of a directive say, field by field: numbers, words of a vocabulary, values of a
kind, and the bounds of a parameter, each of which may be missing. A field that cannot be read
gives the error that shows it.
-/

namespace ShaderFilter

open Number (Single Word)

/-- The result of reading a field, with the reason for a failure. -/
def orError {α : Type} (x : Option α) (e : DirectiveError) : Except DirectiveError α :=
  match x with
  | some a => .ok a
  | none => .error e

theorem orError_eq_ok {α : Type} {x : Option α} {e : DirectiveError} {a : α} :
    orError x e = .ok a ↔ x = some a := by
  cases x <;> simp [orError]

theorem orError_eq_error {α : Type} {x : Option α} {e e' : DirectiveError} :
    orError x e = .error e' ↔ x = none ∧ e' = e := by
  cases x <;> simp [orError, eq_comm]

/-! ### Results one after the other -/

section

variable {ε α β : Type}

@[simp] theorem ok_bind (a : α) (f : α → Except ε β) : (Except.ok a >>= f) = f a := rfl

@[simp] theorem error_bind (e : ε) (f : α → Except ε β) :
    (Except.error e >>= f) = Except.error e := rfl

@[simp] theorem map_ok (a : α) (f : α → β) :
    (f <$> (Except.ok a : Except ε α)) = Except.ok (f a) := rfl

@[simp] theorem map_error (e : ε) (f : α → β) :
    (f <$> (Except.error e : Except ε α)) = .error e := rfl

@[simp] theorem mapError_ok {ε' : Type} (a : α) (g : ε → ε') :
    (Except.ok a : Except ε α).mapError g = .ok a := rfl

@[simp] theorem mapError_error {ε' : Type} (e : ε) (g : ε → ε') :
    (Except.error e : Except ε α).mapError g = .error (g e) := rfl

theorem bind_eq_ok {x : Except ε α} {f : α → Except ε β} {b : β} :
    (x >>= f) = Except.ok b ↔ ∃ a, x = .ok a ∧ f a = .ok b := by
  cases x <;> simp

theorem bind_eq_error {x : Except ε α} {f : α → Except ε β} {e : ε} :
    (x >>= f) = Except.error e ↔ x = .error e ∨ ∃ a, x = .ok a ∧ f a = .error e := by
  cases x <;> simp

theorem map_eq_ok {x : Except ε α} {f : α → β} {b : β} :
    (f <$> x) = Except.ok b ↔ ∃ a, x = .ok a ∧ f a = b := by
  cases x <;> simp

theorem mapError_eq_ok {ε' : Type} {x : Except ε α} {g : ε → ε'} {a : α} :
    x.mapError g = .ok a ↔ x = .ok a := by
  cases x <;> simp

theorem map_eq_error {x : Except ε α} {f : α → β} {e : ε} :
    (f <$> x) = Except.error e ↔ x = .error e := by
  cases x <;> simp

end

/-! ### Single fields -/

/-- Reads the number of an index field. -/
def readIndex (place : IndexField) (field : String) : Except DirectiveError Word :=
  orError (Word.read? field) (.notANumber place field)

/-- Reads a kind of parameters. -/
def readKind (field : String) : Except DirectiveError Kind :=
  orError (Kind.read? field) (.unknownKeyword .kind field)

/-- Reads a slot. -/
def readSlot (field : String) : Except DirectiveError Slot :=
  orError (Slot.read? field) (.unknownKeyword .slot field)

/-- Reads a key. -/
def readKey (field : String) : Except DirectiveError Key :=
  orError (Key.read? field) (.invalidKey field)

/-- Reads a modification. -/
def readModification (field : String) : Except DirectiveError Modification :=
  orError (Modification.read? field) (.unknownKeyword .modification field)

/-- Reads a value of a type. -/
def readScalar {α : Type} [Scalar α] (field : String) : Except DirectiveError α :=
  orError (Scalar.read? field) (.conversion (Scalar.kind α) field)

/-- Reads a value of a kind. -/
def readValue (k : Kind) (field : String) : Except DirectiveError Value :=
  orError (Value.read? k field) (.conversion k field)

/-- Reads the value of a field, or takes another one where the field is missing. -/
def readOr {α : Type} [Scalar α] (missing : α) : Option String → Except DirectiveError α
  | some field => readScalar field
  | none => .ok missing

/-! ### Controls -/

/-- Reads default and bounds, each of which may be missing. -/
def readBounds {α : Type} [Scalar α] (fields : List String) :
    Except DirectiveError (Control α) := do
  let default ← readOr Scalar.zero fields[0]?
  let min ← readOr Scalar.least fields[1]?
  let max ← readOr Scalar.greatest fields[2]?
  pure { min, max, default, actions := .empty }

/-- Reads the default of a bool parameter, whose bounds are fixed. -/
def readSwitch (fields : List String) : Except DirectiveError (Control Bool) := do
  let default ← readOr false fields[0]?
  pure { min := false, max := true, default, actions := .empty }

/-- Reads the control of a parameter of a kind. -/
def readControl (k : Kind) (fields : List String) : Except DirectiveError AnyControl :=
  match k with
  | .float => AnyControl.float <$> readBounds fields
  | .int => AnyControl.int <$> readBounds fields
  | .bool => AnyControl.bool <$> readSwitch fields

/-! ### Settings -/

/-- A setting of a filter. -/
inductive Setting where
  /-- The title. -/
  | title (text : String)
  /-- What the filter does. -/
  | description (text : String)
  /-- Whether the filter runs once for each direction. -/
  | separable (flag : Bool)
  /-- Whether one invocation is enough. -/
  | singleInvocation (flag : Bool)
  deriving DecidableEq

/-- Whether a field of a setting says true. -/
def isTrue (field : String) : Bool := Text.lower field == "true"

/-- The settings by their words, each as a function of the second field and of the text after
the first comma. -/
def settings : List (String × (String → String → Setting)) :=
  [("sepa", fun field _ => .separable (isTrue field)),
    ("singleinvocation", fun field _ => .singleInvocation (isTrue field)),
    ("title", fun _ text => .title text),
    ("description", fun _ text => .description text)]

/-- Reads the word of a setting. -/
def readSettingWord (word : String) : Except DirectiveError (String → String → Setting) :=
  orError (Text.keyword? settings word) (.unknownKeyword .setting word)

end ShaderFilter
