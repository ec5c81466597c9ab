import ShaderFilter.Definition

/-!
# Playing

Pressing keys and using controls on the current values of a filter's parameters, which start at the
defaults.
-/

namespace ShaderFilter

namespace Parameter

/-- Presses keys one after the other. Gives the last value, and whether a key had an action. -/
def pressKeys (p : Parameter) : List Key → Value × Bool → Value × Bool
  | [], held => held
  | key :: keys, held => pressKeys p keys <|
    match p.fire? (.key key) held.1 with
    | some v => (v, true)
    | none => held

/-- The value after pressing keys from the default on, if one of them had an action. -/
def afterKeys? (p : Parameter) (keys : List Key) : Option Value :=
  match p.pressKeys keys (p.default, false) with
  | (v, true) => some v
  | (_, false) => none

end Parameter

/-- The parameters of a filter with their current values. -/
abbrev Session := List (Parameter × Value)

/-- The parameters with their defaults. -/
def Definition.session (d : Definition) : Session := d.parameters.map fun p => (p, p.default)

namespace Session

/-- The current values after a key is pressed on every parameter. -/
def pressAll (key : Key) (s : Session) : Session :=
  s.map fun (p, v) => (p, p.next (.key key) v)

/-- The names of the parameters on which a key has an action on the current value. -/
def touched (key : Key) (s : Session) : List String :=
  s.filterMap fun (p, v) => (p.fire? (.key key) v).map fun _ => p.name

/-- The session with `v` as the current value of parameter number `i`. -/
def hold (i : Nat) (v : Value) (s : Session) : Session := s.modify i fun (p, _) => (p, v)

/-- What a trigger does to the current value of parameter number `i`, if it has an action there. -/
def fire? (i : Nat) (t : Trigger) (s : Session) : Option Value := do
  let (p, v) ← s[i]?
  p.fire? t v

/-- The session after a trigger is fired on parameter number `i`. -/
def fire (i : Nat) (t : Trigger) (s : Session) : Session :=
  match s.fire? i t with
  | some v => s.hold i v
  | none => s

/-- The number of the first parameter with a name. -/
def indexOf? (name : String) (s : Session) : Option Nat := s.findIdx? fun (p, _) => p.name == name

end Session

end ShaderFilter
