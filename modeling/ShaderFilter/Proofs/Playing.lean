import ShaderFilter.Proofs.Actions
import ShaderFilter.Proofs.Clamp
import ShaderFilter.Proofs.Run

/-!
# Playing a parameter

`Parameter.play` is the value of a parameter after events in any order: it starts at the
default, and an event replaces it exactly when the event gives a value. What one event gives is
known by inversion (`Control.fire?_eq_some_iff`): the action of its trigger, applied to a value
of the right kind and clamped. From this, by induction on the events with the last one first,
follows what every run keeps.

Floats are left out of the main result, since they may leave their bounds; whole numbers and
truth values never do.
-/

namespace ShaderFilter

/-! ### One event -/

namespace Control

variable {α : Type} [Scalar α] [LawfulScalar α] {c : Control α} {t : Trigger} {v w : Value}

theorem fire?_eq_some_iff : c.fire? t v = some w ↔
    ∃ a x, c.actions.get? t = some a ∧ v = Scalar.toValue x ∧
      w = Scalar.toValue (c.apply a x) := by
  simp only [fire?, Option.bind_eq_bind, Option.bind_eq_some_iff, Option.pure_def,
    Option.some.injEq, LawfulScalar.ofValue?_eq_some_iff]
  constructor
  · rintro ⟨a, ha, x, rfl, rfl⟩
    exact ⟨a, x, ha, rfl, rfl⟩
  · rintro ⟨a, x, ha, rfl, rfl⟩
    exact ⟨a, ha, x, rfl, rfl⟩

theorem isSome_fire? :
    (c.fire? t v).isSome ↔ (c.action? t).isSome ∧ v.kind = Scalar.kind α := by
  simp only [Option.isSome_iff_exists, fire?_eq_some_iff, action?, Option.map_eq_some_iff]
  constructor
  · rintro ⟨_, a, x, ha, rfl, rfl⟩
    exact ⟨⟨_, a, ha, rfl⟩, LawfulScalar.kind_toValue x⟩
  · rintro ⟨⟨_, a, ha, rfl⟩, hk⟩
    obtain ⟨x, rfl⟩ := LawfulScalar.exists_toValue hk
    exact ⟨_, a, x, ha, rfl, rfl⟩

theorem kind_of_fire? (h : c.fire? t v = some w) : w.kind = Scalar.kind α := by
  obtain ⟨a, x, -, -, rfl⟩ := fire?_eq_some_iff.1 h
  exact LawfulScalar.kind_toValue _

/-- Where every scalar is comparable, the value lies between bounds that are in order, and is one
of two bounds that are inverted. -/
theorem bounds_of_fire? (hα : ∀ x : α, Scalar.toValue x ≤ Scalar.toValue x)
    (h : c.fire? t v = some w) :
    (Scalar.toValue c.min ≤ Scalar.toValue c.max →
      Scalar.toValue c.min ≤ w ∧ w ≤ Scalar.toValue c.max) ∧
    (¬ Scalar.toValue c.min ≤ Scalar.toValue c.max →
      w = Scalar.toValue c.min ∨ w = Scalar.toValue c.max) := by
  obtain ⟨a, x, -, -, rfl⟩ := fire?_eq_some_iff.1 h
  refine ⟨fun hb => Scalar.clamp_mem hb (hα _), fun hb => ?_⟩
  exact (Scalar.clamp_of_inverted (hα _) (hα _) hb (hα _)).imp
    (congrArg Scalar.toValue) (congrArg Scalar.toValue)

end Control

namespace Parameter

variable {p : Parameter} {t : Trigger} {v w : Value}

/-- An event gives a value if its trigger has an action and the current value is of the kind of
the parameter. -/
theorem isSome_fire? : (p.fire? t v).isSome ↔ (p.action? t).isSome ∧ v.kind = p.kind := by
  obtain ⟨name, location, control⟩ := p
  cases control <;> exact Control.isSome_fire?

theorem kind_of_fire? (h : p.fire? t v = some w) : w.kind = p.kind := by
  obtain ⟨name, location, control⟩ := p
  cases control <;> exact Control.kind_of_fire? h

theorem kind_default : p.default.kind = p.kind := by
  obtain ⟨name, location, control⟩ := p
  cases control <;> rfl

/-- A value lies between the bounds. -/
def Within (p : Parameter) (v : Value) : Prop := p.min ≤ v ∧ v ≤ p.max

instance : Decidable (p.Within v) := inferInstanceAs (Decidable (p.min ≤ v ∧ v ≤ p.max))

/-- What the bounds of a parameter promise: to lie between them where they are in order, and to
be one of them where they are inverted. -/
structure Keeps (p : Parameter) (v : Value) : Prop where
  /-- The value lies between bounds that are in order. -/
  within : p.min ≤ p.max → p.Within v
  /-- The value is one of two bounds that are inverted. -/
  inverted : ¬ p.min ≤ p.max → v = p.min ∨ v = p.max

theorem keeps_of_fire? (hk : p.kind ≠ .float) (h : p.fire? t v = some w) : p.Keeps w := by
  obtain ⟨name, location, control⟩ := p
  cases control with
  | float c => exact absurd rfl hk
  | int c =>
    obtain ⟨hw, hi⟩ := Control.bounds_of_fire? (fun _ => .int (Int.le_refl _)) h
    exact ⟨hw, hi⟩
  | bool c =>
    obtain ⟨hw, hi⟩ := Control.bounds_of_fire? (fun _ => .bool (Bool.le_refl _)) h
    exact ⟨hw, hi⟩

/-- A parameter shows an action of a trigger, among its keys or among the actions of its slots. -/
def Binds (p : Parameter) : Trigger → Prop
  | .key k => k ∈ p.keys
  | .slot s => ∃ a, (s, a) ∈ p.slotActions

theorem binds_iff : p.Binds t ↔ (p.action? t).isSome := by
  cases t with
  | slot s => simp only [Binds, mem_slotActions, Option.isSome_iff_exists]
  | key k => exact mem_keys

/-! ### Runs -/

/-- The value after events, from the default on. -/
def play (p : Parameter) (events : List Trigger) : Value :=
  events.foldl (fun v t => p.next t v) p.default

theorem play_snoc {events : List Trigger} : p.play (events ++ [t]) = p.next t (p.play events) := by
  simp only [play, List.foldl_append, List.foldl_cons, List.foldl_nil]

/-- What the default has and every event keeps is kept by every run. -/
theorem play_preserves {P : Value → Prop} (hdefault : P p.default)
    (hnext : ∀ {v t}, P v → P (p.next t v)) (events : List Trigger) : P (p.play events) := by
  induction events using List.reverseRecOn with
  | nil => exact hdefault
  | append_singleton events t ih => exact play_snoc ▸ hnext ih

theorem next_of_fire? (h : p.fire? t v = some w) : p.next t v = w := by
  rw [next, h, Option.getD_some]

theorem next_of_not_binds (h : ¬ p.Binds t) : p.next t v = v := by
  rw [binds_iff, Option.not_isSome_iff_eq_none] at h
  rw [next, fire?_eq_none h, Option.getD_none]

theorem kind_next (hv : v.kind = p.kind) : (p.next t v).kind = p.kind := by
  unfold next
  cases h : p.fire? t v with
  | none => exact hv
  | some w => exact kind_of_fire? h

theorem kind_play (p : Parameter) (events : List Trigger) : (p.play events).kind = p.kind :=
  play_preserves (P := fun v => v.kind = p.kind) kind_default kind_next events

/-- In a run, the events that give a value are those that are bound. -/
theorem isSome_fire?_play {events : List Trigger} :
    (p.fire? t (p.play events)).isSome ↔ p.Binds t := by
  rw [isSome_fire?, binds_iff, and_iff_left (kind_play p events)]

theorem play_eq_default {events : List Trigger} (h : ∀ t ∈ events, ¬ p.Binds t) :
    p.play events = p.default := by
  induction events using List.reverseRecOn with
  | nil => rfl
  | append_singleton events t ih =>
    rw [play_snoc, next_of_not_binds (h t (by simp))]
    exact ih fun u hu => h u (by simp [hu])

theorem keeps_play {events : List Trigger} (hk : p.kind ≠ .float)
    (h : ∃ t ∈ events, p.Binds t) : p.Keeps (p.play events) := by
  induction events using List.reverseRecOn with
  | nil => simp at h
  | append_singleton events t ih =>
    rw [play_snoc]
    by_cases ht : p.Binds t
    · obtain ⟨w, hw⟩ := Option.isSome_iff_exists.1 (isSome_fire?_play.2 ht)
      exact next_of_fire? hw ▸ keeps_of_fire? hk hw
    · -- The event changes nothing, so a bound one has come before.
      rw [next_of_not_binds ht]
      refine ih ?_
      obtain ⟨u, hu, hb⟩ := h
      rcases List.mem_append.1 hu with hu | hu
      · exact ⟨u, hu, hb⟩
      · exact absurd (List.mem_singleton.1 hu ▸ hb) ht

/-- **A whole number or a truth value is played within its bounds.** Whatever keys are pressed
and slots are used, the value keeps its kind, and an event gives a value exactly when it is
bound. Before the first bound event the value is the default, wherever the bounds are; the value
that a bound event gives is held from then on, and the bounds keep their promise for it. -/
theorem play_keeps_bounds (hk : p.kind ≠ .float) (events : List Trigger) :
    (p.play events).kind = p.kind ∧
    (∀ t, (p.fire? t (p.play events)).isSome ↔ p.Binds t) ∧
    ((∀ t ∈ events, ¬ p.Binds t) → p.play events = p.default) ∧
    (∀ t v, p.fire? t (p.play events) = some v → p.play (events ++ [t]) = v ∧ p.Keeps v) ∧
    (∀ t, p.fire? t (p.play events) = none → p.play (events ++ [t]) = p.play events) ∧
    ((∃ t ∈ events, p.Binds t) → p.Keeps (p.play events)) := by
  refine ⟨kind_play p events, fun t => isSome_fire?_play, play_eq_default, fun t v h => ?_,
    fun t h => ?_, keeps_play hk⟩
  · exact ⟨play_snoc.trans (next_of_fire? h), keeps_of_fire? hk h⟩
  · rw [play_snoc, next, h, Option.getD_none]

/-- A script whose parameter has its bounds inverted and its default outside of both. -/
def invertedBounds : String := "#param n,0,int,20,10,0\n#keybinding n,Up,5,add"

/-- Between inverted bounds, the first key puts the value on one of them. -/
theorem play_keeps_bounds_inverted :
    ∃ d p, (Script.parse "f" invertedBounds).result = .ok d ∧ d.parameter? "n" = some p ∧
      p.kind ≠ .float ∧ ¬ p.min ≤ p.max ∧
      p.play [.key ⟨26⟩] = .int ⟨20, by decide, by decide⟩ ∧
      (p.play [.key ⟨26⟩, .key ⟨24⟩] = p.min ∨ p.play [.key ⟨26⟩, .key ⟨24⟩] = p.max) := by
  have hshown : ((Script.parse "f" invertedBounds).result.toOption.bind (·.parameter? "n")).map
      (fun p => (decide (p.min ≤ p.max), p.default, p.keys)) =
      some (false, .int ⟨20, by decide, by decide⟩, [⟨24⟩]) := by decide +kernel
  obtain ⟨d, p, hd, hp, h⟩ := Script.exists_parameter hshown
  simp only [Prod.mk.injEq, decide_eq_false_iff_not] at h
  obtain ⟨hb, hdefault, hkeys⟩ := h
  have hk : p.kind ≠ .float := by
    intro hfloat
    rw [← kind_default, hdefault] at hfloat
    cases hfloat
  obtain ⟨-, -, hsame, -, -, -⟩ := play_keeps_bounds hk [.key ⟨26⟩]
  obtain ⟨-, -, -, -, -, hkeeps⟩ := play_keeps_bounds hk [.key ⟨26⟩, .key ⟨24⟩]
  refine ⟨d, p, hd, hp, hk, hb, (hsame ?_).trans hdefault, (hkeeps ?_).inverted hb⟩
  · simp [Binds, hkeys]
  · exact ⟨.key ⟨24⟩, by simp, by simp [Binds, hkeys]⟩

end Parameter

end ShaderFilter
