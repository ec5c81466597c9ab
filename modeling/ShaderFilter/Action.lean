import ShaderFilter.Key
import ShaderFilter.Scalar

/-!
# Actions

An action changes the current value of a parameter. It is fired by a slot, which stands for a control
of the user interface, or by a key.
-/

namespace ShaderFilter

/-- A change to the current value of a parameter. -/
structure Action (α : Type) where
  /-- The value that is combined with the current one. -/
  value : α
  /-- How it is combined. -/
  modification : Modification
  deriving DecidableEq

/-- The value after an action, without regard to bounds. -/
def Action.apply {α : Type} [Scalar α] (a : Action α) (current : α) : α :=
  Scalar.modify a.modification current a.value

/-- The controls of the user interface that fire actions. -/
inductive Slot where
  /-- The control that raises the value. -/
  | onAdd
  /-- The control that lowers the value. -/
  | onSubtract
  deriving DecidableEq

namespace Slot

/-- The name of a slot. -/
def name : Slot → String
  | .onAdd => "OnAdd"
  | .onSubtract => "OnSubtract"

/-- The slot that a word stands for. -/
def read? : String → Option Slot :=
  Text.keyword? [("onadd", .onAdd), ("onsubtract", .onSubtract)]

end Slot

/-- What fires an action. -/
inductive Trigger where
  /-- A control of the user interface. -/
  | slot (s : Slot)
  /-- A key. -/
  | key (k : Key)
  deriving DecidableEq

namespace Trigger

/-- The number of a trigger: the slots come before the keys, which are in the order of their codes. -/
def number : Trigger → Nat
  | .slot .onAdd => 0
  | .slot .onSubtract => 1
  | .key k => k.code.val + 2

theorem number_injective : ∀ {a b : Trigger}, a.number = b.number → a = b
  | .slot .onAdd, .slot .onAdd, _ => rfl
  | .slot .onSubtract, .slot .onSubtract, _ => rfl
  | .key a, .key b, h =>
    congrArg key (Ranked.rank_injective (Nat.add_right_cancel (m := 2) h : a.code.val = b.code.val))

instance : Ranked Trigger := ⟨number, number_injective⟩

/-- The key, if a key is the trigger. -/
def key? : Trigger → Option Key
  | .key k => some k
  | .slot _ => none

/-- The slot, if a slot is the trigger. -/
def slot? : Trigger → Option Slot
  | .slot s => some s
  | .key _ => none

/-- The name of a trigger. -/
def name : Trigger → String
  | .slot s => s.name
  | .key k => k.name

end Trigger

end ShaderFilter
