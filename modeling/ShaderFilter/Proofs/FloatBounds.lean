import ShaderFilter.Proofs.Playing

/-!
# Floats that leave their bounds

An action on a float parameter may have no number for a result: the value of an action may be
written `nan`, opposite infinities have no sum, and zero and an infinity have no product
(`Undefined`). Clamping lets such a result through, since it exceeds no bound. So a float
parameter does not stay within its bounds in general; `play_float_bounds` says exactly when it
does.

Bounds and values that are finite leave no room for an undefined result, so a parameter that has
no others is as safe as a whole number.
-/

namespace ShaderFilter

open Number (Single)

/-! ### Modifications without a result -/

namespace Number.Single

/-- Combining a current value with the value of an action gives no number. -/
inductive Undefined : Modification → Single → Single → Prop where
  /-- The value of the action is not a number. -/
  | value {m : Modification} {x : Single} : Undefined m x .nan
  /-- The current value is not a number, and it is not replaced. -/
  | current {m : Modification} {y : Single} : m ≠ .set → Undefined m .nan y
  /-- Opposite infinities are added. -/
  | opposite {s t : Bool} : s ≠ t → Undefined .add (.infinite s) (.infinite t)
  /-- An infinity is multiplied by zero. -/
  | infiniteZero {s t : Bool} {r : Fin rankLimit} : r.val = 0 →
      Undefined .multiply (.infinite s) (.finite t r)
  /-- Zero is multiplied by an infinity. -/
  | zeroInfinite {s t : Bool} {r : Fin rankLimit} : r.val = 0 →
      Undefined .multiply (.finite s r) (.infinite t)

/-- Rounding ends at a number, if need be at an infinity. -/
theorem round_ne_nan (s : Bool) (num den : Nat) : round s num den ≠ .nan := by
  by_cases h : nearestRank num den < rankLimit <;> simp [round, h]

theorem add_eq_nan_iff {x y : Single} : add x y = .nan ↔ Undefined .add x y := by
  constructor
  · intro h
    cases x with
    | nan => exact .current nofun
    | infinite s =>
      cases y with
      | nan => exact .value
      | infinite t => exact .opposite fun hst => by simp [add, hst] at h
      | finite t b => cases h
    | finite s a =>
      cases y with
      | nan => exact .value
      | infinite t => cases h
      | finite t b =>
        simp only [add] at h
        split at h
        · cases h
        · exact absurd h (round_ne_nan _ _ _)
  · intro h
    cases h with
    | value => cases x <;> rfl
    | current _ => rfl
    | opposite hst => exact if_neg hst

theorem multiply_eq_nan_iff {x y : Single} : multiply x y = .nan ↔ Undefined .multiply x y := by
  constructor
  · intro h
    cases x with
    | nan => exact .current nofun
    | infinite s =>
      cases y with
      | nan => exact .value
      | infinite t => cases h
      | finite t b => exact .infiniteZero (by simpa [multiply] using h)
    | finite s a =>
      cases y with
      | nan => exact .value
      | infinite t => exact .zeroInfinite (by simpa [multiply] using h)
      | finite t b => exact absurd h (round_ne_nan _ _ _)
  · intro h
    cases h with
    | value => cases x <;> rfl
    | current _ => rfl
    | infiniteZero hr => exact if_pos hr
    | zeroInfinite hr => exact if_pos hr

/-- A modification ends at what is not a number exactly where it is undefined. -/
theorem modify_eq_nan_iff {m : Modification} {x y : Single} :
    Scalar.modify m x y = .nan ↔ Undefined m x y := by
  cases m with
  | add => exact add_eq_nan_iff
  | multiply => exact multiply_eq_nan_iff
  | set =>
    constructor
    · rintro rfl
      exact .value
    · intro h
      cases h with
      | value => rfl
      | current hm => exact absurd rfl hm

/-- A number that is no infinity. -/
def IsFinite (x : Single) : Prop := ∃ s r, x = .finite s r

/-- Finite numbers are combined to a number. -/
theorem not_undefined_of_finite {m : Modification} {x y : Single} (hx : x.IsFinite)
    (hy : y.IsFinite) : ¬ Undefined m x y := by
  obtain ⟨s, a, rfl⟩ := hx
  obtain ⟨t, b, rfl⟩ := hy
  nofun

/-- Between finite numbers there is no infinity. -/
theorem isFinite_of_between {lower x upper : Single} (hl : lower.IsFinite) (hu : upper.IsFinite)
    (hlx : lower ≤ x) (hxu : x ≤ upper) : x.IsFinite := by
  obtain ⟨s, a, rfl⟩ := hl
  obtain ⟨t, b, rfl⟩ := hu
  cases x with
  | nan => exact absurd rfl (ne_nan_of_le hlx).2
  | finite u r => exact ⟨u, r, rfl⟩
  | infinite u =>
    cases u with
    | false => cases hxu
    | true => cases hlx

end Number.Single

open Number.Single (Undefined)

/-! ### One event -/

/-- The value is a finite float. -/
def Value.IsFinite (v : Value) : Prop := ∃ x : Single, x.IsFinite ∧ v = .float x

/-- The value is a finite float, or of another kind. -/
def Value.FloatIsFinite (v : Value) : Prop := ∀ x : Single, v = .float x → x.IsFinite

theorem Control.fire?_of_action? {c : Control Single} {t : Trigger} {y : Single}
    {m : Modification} (ha : c.action? t = some ⟨.float y, m⟩) (x : Single) :
    c.fire? t (.float x) = some (.float (Scalar.clamp c.min c.max (Scalar.modify m x y))) := by
  obtain ⟨a, hget, h⟩ := Option.map_eq_some_iff.1 ha
  obtain ⟨z, n⟩ := a
  cases h
  exact fire?_eq_some_iff.2 ⟨_, x, hget, rfl, rfl⟩

namespace Parameter

variable {p : Parameter} {t : Trigger} {v : Value}

/-- An event on a float parameter whose bounds are in order ends between them or, if its result
is undefined, at what is not a number. -/
theorem fire?_float (hk : p.kind = .float) (hb : p.min ≤ p.max) {x y : Single} {m : Modification}
    (ha : p.action? t = some ⟨.float y, m⟩) :
    ∃ w, p.fire? t (.float x) = some w ∧ (Undefined m x y → w = .float .nan) ∧
      (¬ Undefined m x y → p.Within w) := by
  obtain ⟨name, location, control⟩ := p
  cases control with
  | float c =>
    refine ⟨_, Control.fire?_of_action? ha x, fun hu => ?_, fun hu => ?_⟩
    · rw [Number.Single.modify_eq_nan_iff.2 hu, Scalar.clamp_of_incomparable]
      exact fun h => Value.le_self_iff.1 h rfl
    · refine Scalar.clamp_mem hb (Value.le_self_iff.2 fun h => ?_)
      exact hu (Number.Single.modify_eq_nan_iff.1 (Value.float.inj h))
  | int c => cases hk
  | bool c => cases hk

/-- The result of an event is not undefined, as far as there is one. -/
def Defined (p : Parameter) (t : Trigger) (v : Value) : Prop :=
  ∀ x y m, v = .float x → p.action? t = some ⟨.float y, m⟩ → ¬ Undefined m x y

theorem within_next (hk : p.kind = .float) (hv : p.Within v) (hd : p.Defined t v) :
    p.Within (p.next t v) := by
  unfold next
  cases h : p.fire? t v with
  | none => exact hv
  | some w =>
    obtain ⟨hbound, hvk⟩ := isSome_fire?.1 (Option.isSome_of_eq_some h)
    obtain ⟨a, ha⟩ := Option.isSome_iff_exists.1 hbound
    -- Both values are floats, as the parameter is.
    obtain ⟨x, rfl⟩ : ∃ x, v = .float x := LawfulScalar.exists_toValue (hvk.trans hk)
    obtain ⟨y, hy⟩ : ∃ y, a.value = .float y :=
      LawfulScalar.exists_toValue ((kind_of_action? ha).trans hk)
    obtain ⟨z, m⟩ := a
    cases hy
    obtain ⟨w', hw', -, hin⟩ := fire?_float hk (Value.le_trans hv.1 hv.2) ha (x := x)
    cases h.symm.trans hw'
    exact hin (hd x y m rfl ha)

/-! ### Runs -/

/-- A run stays within the bounds as long as the results of its events are not undefined. -/
theorem within_play (hk : p.kind = .float) (hdefault : p.Within p.default) {events : List Trigger}
    (hd : ∀ before t, before ++ [t] <+: events → p.Defined t (p.play before)) :
    p.Within (p.play events) := by
  induction events using List.reverseRecOn with
  | nil => exact hdefault
  | append_singleton events t ih =>
    rw [play_snoc]
    refine within_next hk (ih fun before u h => ?_) (hd events t (List.prefix_refl _))
    exact hd before u (h.trans (List.prefix_append _ _))

/-- The result of an event is defined if the bounds and the value of its action are finite. -/
theorem defined_of_finite (hmin : p.min.IsFinite) (hmax : p.max.IsFinite)
    (ha : ∀ a, p.action? t = some a → a.value.IsFinite) (hv : p.Within v) : p.Defined t v := by
  rintro x y m rfl hy
  obtain ⟨_, hy, hy'⟩ := ha _ hy
  cases hy'
  obtain ⟨l, hl, hlv⟩ := hmin
  obtain ⟨u, hu, huv⟩ := hmax
  rw [Within, hlv, huv, Value.float_le_float, Value.float_le_float] at hv
  exact Number.Single.not_undefined_of_finite
    (Number.Single.isFinite_of_between hl hu hv.1 hv.2) hy

/-- Finite bounds hold a run with finite values for good. -/
theorem within_play_of_finite (hk : p.kind = .float) (hmin : p.min.IsFinite)
    (hmax : p.max.IsFinite) (ha : ∀ t a, p.action? t = some a → a.value.IsFinite)
    (hdefault : p.Within p.default) (events : List Trigger) : p.Within (p.play events) :=
  play_preserves (P := p.Within) hdefault
    (fun hv => within_next hk hv (defined_of_finite hmin hmax (ha _) hv)) events

/-- **A float is played within its bounds unless an event has no number for a result.** On a
float parameter whose bounds are in order, an event ends between the bounds if its result is
defined, and at what is not a number otherwise. So a run from a default between the bounds stays
there as long as the results are defined, and for good if the bounds and the values of all
actions are finite. -/
theorem play_float_bounds (hk : p.kind = .float) (hb : p.min ≤ p.max) :
    (∀ t x y m, p.action? t = some ⟨.float y, m⟩ →
      ∃ w, p.fire? t (.float x) = some w ∧ (Undefined m x y → w = .float .nan) ∧
        (¬ Undefined m x y → p.Within w)) ∧
    (p.Within p.default →
      (∀ events, (∀ before t, before ++ [t] <+: events → p.Defined t (p.play before)) →
        p.Within (p.play events)) ∧
      (p.min.IsFinite → p.max.IsFinite → (∀ t a, p.action? t = some a → a.value.IsFinite) →
        ∀ events, p.Within (p.play events))) := by
  refine ⟨fun t x y m => fire?_float hk hb, fun hdefault => ⟨fun events => within_play hk hdefault,
    fun hmin hmax ha => within_play_of_finite hk hmin hmax ha hdefault⟩⟩

/-- A script whose parameter is added to and multiplied by an infinity, from zero on. -/
def infiniteSteps : String :=
  "#param x,0,float,0,-1,1\n#keybinding x,Up,inf,multiply\n#paramprop x,OnAdd,inf,add"

/-- An infinity that is added is clamped, and one by which zero is multiplied is not. -/
theorem play_float_bounds_infinite :
    ∃ d p, (Script.parse "f" infiniteSteps).result = .ok d ∧ d.parameter? "x" = some p ∧
      p.kind = .float ∧ p.Within p.default ∧ p.Within (p.play [.slot .onAdd]) ∧
      p.fire? (.key ⟨24⟩) p.default = some (.float .nan) := by
  have hshown : ((Script.parse "f" infiniteSteps).result.toOption.bind (·.parameter? "x")).map
      (fun p => ((p.default, decide (p.Within p.default)), p.action? (.key ⟨24⟩),
        p.action? (.slot .onAdd))) =
      some ((.float .zero, true), some ⟨.float (.infinite false), .multiply⟩,
        some ⟨.float (.infinite false), .add⟩) := by decide +kernel
  obtain ⟨d, p, hd, hp, h⟩ := Script.exists_parameter hshown
  simp only [Prod.mk.injEq, decide_eq_true_eq] at h
  obtain ⟨⟨hdefault, hin⟩, hmultiply, hadd⟩ := h
  have hk : p.kind = .float := kind_default.symm.trans (congrArg Value.kind hdefault)
  obtain ⟨hevent, hrun⟩ := play_float_bounds hk (Value.le_trans hin.1 hin.2)
  obtain ⟨w, hw, hnan, -⟩ := hevent _ .zero _ _ hmultiply
  refine ⟨d, p, hd, hp, hk, hin, (hrun hin).1 _ fun before t hprefix => ?_, ?_⟩
  · -- The only event of the run adds an infinity to zero.
    obtain ⟨rfl, rfl⟩ : before = [] ∧ t = .slot .onAdd := by
      cases before with
      | nil => simpa using hprefix
      | cons u us => exact absurd hprefix.length_le (by simp)
    intro x y m hx ha hundefined
    cases hdefault.symm.trans hx
    cases hadd.symm.trans ha
    cases hundefined
  · rw [hdefault, hw, hnan (.zeroInfinite rfl)]

/-- A script with a parameter that has one place between its bounds. -/
def onePlace : String := "#param x,0,float,1,1,1\n#keybinding x,Up,nan,set"

/-- A float parameter leaves its bounds, from a default between them. -/
theorem float_leaves_bounds :
    ∃ d p v, (Script.parse "f" onePlace).result = .ok d ∧ d.parameter? "x" = some p ∧
      p.kind = .float ∧ p.min ≤ p.max ∧ p.Within p.default ∧
      p.fire? (.key ⟨24⟩) p.default = some v ∧ ¬ p.Within v := by
  have hshown : ((Script.parse "f" onePlace).result.toOption.bind (·.parameter? "x")).map
      (fun p => (p.kind, decide (p.Within p.default), p.fire? (.key ⟨24⟩) p.default)) =
      some (.float, true, some (.float .nan)) := by decide +kernel
  obtain ⟨d, p, hd, hp, h⟩ := Script.exists_parameter hshown
  simp only [Prod.mk.injEq, decide_eq_true_eq] at h
  obtain ⟨hk, hin, hfire⟩ := h
  refine ⟨d, p, _, hd, hp, hk, Value.le_trans hin.1 hin.2, hin, hfire, fun hout => ?_⟩
  exact Value.le_self_iff.1 (Value.le_self_of_le hout.1).2 rfl

end Parameter

end ShaderFilter
