import ShaderFilter.Action

/-!
# Parameters

A parameter of a filter has a name, the location of its uniform in the shader, and a control: bounds, a
default and the actions that change its current value. The bounds limit what an action leaves behind,
not the default.
-/

namespace ShaderFilter

open Number (Single Word)

/-- Bounds, default and actions of a parameter. -/
structure Control (α : Type) where
  /-- The lower bound. -/
  min : α
  /-- The upper bound. -/
  max : α
  /-- The first current value. -/
  default : α
  /-- The actions by their triggers. -/
  actions : OrderedMap Trigger (Action α)
  deriving DecidableEq

namespace Control

variable {α : Type} [Scalar α]

/-- The value after an action, within the bounds. -/
def apply (c : Control α) (a : Action α) (current : α) : α :=
  Scalar.clamp c.min c.max (a.apply current)

/-- Stores an action in the place of the one with the same trigger. An action with a value of another
kind is not stored. -/
def bind (c : Control α) (t : Trigger) (a : Action Value) : Control α :=
  match Scalar.ofValue? a.value with
  | some v => { c with actions := c.actions.insert t ⟨v, a.modification⟩ }
  | none => c

/-- The value after the action of a trigger; none if the trigger has no action or the current value is
of another kind. -/
def fire? (c : Control α) (t : Trigger) (current : Value) : Option Value := do
  let a ← c.actions.get? t
  let x ← Scalar.ofValue? current
  pure (Scalar.toValue (c.apply a x))

/-- The actions in the order of their triggers, with values of any kind. -/
def listing (c : Control α) : List (Trigger × Action Value) :=
  c.actions.entries.map fun (t, a) => (t, ⟨Scalar.toValue a.value, a.modification⟩)

end Control

/-- A control for values of one of the three kinds. -/
inductive AnyControl where
  /-- The control of a float parameter. -/
  | float (c : Control Single)
  /-- The control of an int parameter. -/
  | int (c : Control Word)
  /-- The control of a bool parameter. -/
  | bool (c : Control Bool)
  deriving DecidableEq

namespace AnyControl

/-- A function of the controls of every type, on a control of one of them. -/
def elim {β : Type} (c : AnyControl) (f : {α : Type} → [Scalar α] → Control α → β) : β :=
  match c with
  | .float c => f c
  | .int c => f c
  | .bool c => f c

/-- A change of the controls of every type, on a control of one of them. -/
def map (c : AnyControl) (f : {α : Type} → [Scalar α] → Control α → Control α) : AnyControl :=
  match c with
  | .float c => .float (f c)
  | .int c => .int (f c)
  | .bool c => .bool (f c)

end AnyControl

/-- A parameter of a filter. -/
structure Parameter where
  /-- The name by which directives refer to it. -/
  name : String
  /-- The location of its uniform in the shader. -/
  location : Word
  /-- Bounds, default and actions. -/
  control : AnyControl
  deriving DecidableEq

namespace Parameter

/-- The kind of the values. -/
def kind (p : Parameter) : Kind :=
  match p.control with
  | .float _ => .float
  | .int _ => .int
  | .bool _ => .bool

/-- The default. -/
def default (p : Parameter) : Value := p.control.elim fun c => Scalar.toValue c.default

/-- The lower bound. -/
def min (p : Parameter) : Value := p.control.elim fun c => Scalar.toValue c.min

/-- The upper bound. -/
def max (p : Parameter) : Value := p.control.elim fun c => Scalar.toValue c.max

/-- The actions in the order of their triggers. -/
def listing (p : Parameter) : List (Trigger × Action Value) := p.control.elim fun c => c.listing

/-- The actions of the slots. -/
def slotActions (p : Parameter) : List (Slot × Action Value) :=
  p.listing.filterMap fun (t, a) => t.slot?.map (·, a)

/-- The actions of the keys, in the order of the codes. -/
def keyActions (p : Parameter) : List (Key × Action Value) :=
  p.listing.filterMap fun (t, a) => t.key?.map (·, a)

/-- The keys that have an action, in the order of the codes. -/
def keys (p : Parameter) : List Key := p.keyActions.map (·.1)

/-- Stores an action in the place of the one with the same trigger. -/
def bind (p : Parameter) (t : Trigger) (a : Action Value) : Parameter :=
  { p with control := p.control.map fun c => c.bind t a }

/-- The value after the action of a trigger; none if the trigger has no action or the current value is
of another kind. -/
def fire? (p : Parameter) (t : Trigger) (current : Value) : Option Value :=
  p.control.elim fun c => c.fire? t current

/-- The value after the action of a trigger, or the current value where there is none. -/
def next (p : Parameter) (t : Trigger) (current : Value) : Value :=
  (p.fire? t current).getD current

end Parameter

end ShaderFilter
