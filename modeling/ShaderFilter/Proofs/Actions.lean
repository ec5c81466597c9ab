import ShaderFilter.Directive.Reading

/-!
# The actions of a parameter

A parameter is a map from triggers to actions, as far as directives change it.
`Parameter.action?` looks an action up; storing one changes the lookup at its own trigger only
(`Parameter.action?_bind`). The lists that a parameter shows of its slots and keys are this map,
with the keys in the order of their codes.
-/

namespace ShaderFilter

open Number (Word)
open Ranked (rank)

namespace Control

variable {α : Type} [Scalar α]

/-- The action of a trigger, with a value of any kind. -/
def action? (c : Control α) (t : Trigger) : Option (Action Value) :=
  (c.actions.get? t).map fun a => ⟨Scalar.toValue a.value, a.modification⟩

theorem action?_bind (c : Control α) (t u : Trigger) {a : Action Value} {v : α}
    (hv : Scalar.ofValue? a.value = some v) (ha : Scalar.toValue v = a.value) :
    (c.bind t a).action? u = if t = u then some a else c.action? u := by
  have hrank : rank t = rank u ↔ t = u := ⟨Ranked.rank_injective, congrArg rank⟩
  simp only [bind, hv, action?, OrderedMap.get?_insert, hrank]
  split
  · rw [Option.map_some, ha]
  · rfl

/-- Actions of different triggers can be stored in any order. -/
theorem bind_comm (c : Control α) {t u : Trigger} (h : t ≠ u) (a b : Action Value) :
    (c.bind t a).bind u b = (c.bind u b).bind t a := by
  simp only [bind]
  cases Scalar.ofValue? (α := α) a.value with
  | none => cases Scalar.ofValue? (α := α) b.value <;> rfl
  | some v =>
    cases Scalar.ofValue? (α := α) b.value with
    | none => rfl
    | some w => simp only [c.actions.insert_comm h]

/-- A trigger without an action changes no value. -/
theorem fire?_eq_none {c : Control α} {t : Trigger} (h : c.action? t = none) (v : Value) :
    c.fire? t v = none := by
  rw [fire?, Option.map_eq_none_iff.1 h]
  rfl

theorem mem_listing {c : Control α} {t : Trigger} {a : Action Value} :
    (t, a) ∈ c.listing ↔ c.action? t = some a := by
  simp only [listing, List.mem_map, Prod.exists, Prod.mk.injEq, action?, Option.map_eq_some_iff,
    ← OrderedMap.mem_entries]
  constructor
  · rintro ⟨_, a, hm, rfl, ha⟩
    exact ⟨a, hm, ha⟩
  · rintro ⟨a, hm, ha⟩
    exact ⟨t, a, hm, rfl, ha⟩

end Control

theorem Value.kind_of_read? {k : Kind} {field : String} {v : Value} (h : read? k field = some v) :
    v.kind = k := by
  cases k <;> (obtain ⟨_, -, rfl⟩ := Option.map_eq_some_iff.1 h; rfl)

namespace Parameter

/-- The action of a trigger. -/
def action? (p : Parameter) (t : Trigger) : Option (Action Value) :=
  p.control.elim fun c => c.action? t

/-- An action that is stored is found at its own trigger, and the other triggers keep theirs. -/
theorem action?_bind {p : Parameter} {t u : Trigger} {a : Action Value}
    (h : a.value.kind = p.kind) :
    (p.bind t a).action? u = if t = u then some a else p.action? u := by
  obtain ⟨name, location, control⟩ := p
  obtain ⟨value, m⟩ := a
  cases control with
  | float c =>
    cases value with
    | float x => exact c.action?_bind t u rfl rfl
    | _ => cases h
  | int c =>
    cases value with
    | int n => exact c.action?_bind t u rfl rfl
    | _ => cases h
  | bool c =>
    cases value with
    | bool b => exact c.action?_bind t u rfl rfl
    | _ => cases h

/-- Actions of different triggers can be stored in any order. -/
theorem bind_comm (p : Parameter) {t u : Trigger} (h : t ≠ u) (a b : Action Value) :
    (p.bind t a).bind u b = (p.bind u b).bind t a := by
  obtain ⟨name, location, control⟩ := p
  cases control with
  | float c | int c | bool c => simp only [bind, AnyControl.map, c.bind_comm h]

/-- The actions of a parameter have values of its kind. -/
theorem kind_of_action? {p : Parameter} {t : Trigger} {a : Action Value}
    (h : p.action? t = some a) : a.value.kind = p.kind := by
  obtain ⟨name, location, control⟩ := p
  cases control <;> (obtain ⟨_, -, rfl⟩ := Option.map_eq_some_iff.1 h; rfl)

/-- A trigger without an action changes no value. -/
theorem fire?_eq_none {p : Parameter} {t : Trigger} (h : p.action? t = none) (v : Value) :
    p.fire? t v = none := by
  obtain ⟨name, location, control⟩ := p
  cases control <;> exact Control.fire?_eq_none h v

/-- A parameter is declared without actions. -/
theorem action?_of_readControl {k : Kind} {fields : List String} {c : AnyControl}
    (h : readControl k fields = .ok c) (name : String) (location : Word) (t : Trigger) :
    (Parameter.mk name location c).action? t = none := by
  cases k with
  | bool =>
    obtain ⟨c, hc, rfl⟩ := map_eq_ok.1 h
    obtain ⟨_, -, hc⟩ := bind_eq_ok.1 hc
    cases hc
    rfl
  | _ =>
    obtain ⟨c, hc, rfl⟩ := map_eq_ok.1 h
    simp only [readBounds, bind_eq_ok] at hc
    obtain ⟨_, -, _, -, _, -, hc⟩ := hc
    cases hc
    rfl

/-! ### The lists of slots and keys -/

theorem mem_listing {p : Parameter} {t : Trigger} {a : Action Value} :
    (t, a) ∈ p.listing ↔ p.action? t = some a := by
  obtain ⟨name, location, control⟩ := p
  cases control <;> exact Control.mem_listing

theorem mem_slotActions {p : Parameter} {s : Slot} {a : Action Value} :
    (s, a) ∈ p.slotActions ↔ p.action? (.slot s) = some a := by
  simp only [slotActions, List.mem_filterMap, Prod.exists, ← mem_listing]
  constructor
  · rintro ⟨t, a, hm, h⟩
    cases t with
    | slot s => cases h; exact hm
    | key k => cases h
  · intro h
    exact ⟨_, _, h, rfl⟩

theorem mem_keyActions {p : Parameter} {k : Key} {a : Action Value} :
    (k, a) ∈ p.keyActions ↔ p.action? (.key k) = some a := by
  simp only [keyActions, List.mem_filterMap, Prod.exists, ← mem_listing]
  constructor
  · rintro ⟨t, a, hm, h⟩
    cases t with
    | slot s => cases h
    | key k => cases h; exact hm
  · intro h
    exact ⟨_, _, h, rfl⟩

/-- The lists of slots and keys give the actions. -/
theorem action?_eq_of_shown {p q : Parameter} (hs : p.slotActions = q.slotActions)
    (hk : p.keyActions = q.keyActions) (t : Trigger) : p.action? t = q.action? t := by
  refine Option.ext fun a => ?_
  cases t with
  | slot s => rw [← mem_slotActions, ← mem_slotActions, hs]
  | key k => rw [← mem_keyActions, ← mem_keyActions, hk]

/-- A parameter shows nothing where no trigger has an action. -/
theorem shown_eq_nil {p : Parameter} (h : ∀ t, p.action? t = none) :
    p.slotActions = [] ∧ p.keyActions = [] := by
  constructor <;> refine List.eq_nil_iff_forall_not_mem.2 ?_
  · rintro ⟨s, a⟩ hm
    cases (h (.slot s)).symm.trans (mem_slotActions.1 hm)
  · rintro ⟨k, a⟩ hm
    cases (h (.key k)).symm.trans (mem_keyActions.1 hm)

theorem mem_keys {p : Parameter} {k : Key} : k ∈ p.keys ↔ (p.action? (.key k)).isSome := by
  simp only [keys, List.mem_map, Prod.exists, exists_and_right, exists_eq_right, mem_keyActions,
    Option.isSome_iff_exists]

end Parameter

end ShaderFilter
