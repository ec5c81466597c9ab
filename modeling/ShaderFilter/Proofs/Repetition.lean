import ShaderFilter.Proofs.Playing
import ShaderFilter.Proofs.Saturation
import Mathlib.Tactic.Linarith
import Mathlib.Tactic.Ring

/-!
# The same key again and again

A key that is pressed `n` times on a whole number clamps `n` times. What the clamps cut off is
never missed, as long as the start is between the bounds and the step does not turn back at a
bound that it has crossed: a step from the clamped value then ends where the step from the exact
value ends (`clampInt_clampInt`). By induction on the presses, the value is the exact one between
the bounds (`Parameter.leadsTo_of_steps`).

Additions never turn back, since they go in one direction (`add_le_of_crossed`). Multiplications
by a number that is not negative do not either: they keep the sign of the value
(`multiply_le_of_crossed`).
-/

namespace ShaderFilter

open Number (Word)

/-! ### Steps from clamped values -/

section

variable {lower upper z : Int}

theorem clampInt_of_le (hb : lower ≤ upper) (h : z ≤ lower) : clampInt lower upper z = lower := by
  unfold clampInt
  omega

theorem clampInt_of_ge (hb : lower ≤ upper) (h : upper ≤ z) : clampInt lower upper z = upper := by
  unfold clampInt
  omega

theorem clampInt_of_between (hl : lower ≤ z) (hu : z ≤ upper) : clampInt lower upper z = z := by
  unfold clampInt
  omega

/-- A step that does not turn back at a bound that has been crossed may be made from the clamped
value: it ends where the step from the exact value ends. -/
theorem clampInt_clampInt {f : Int → Int} (hf : ∀ x y, x ≤ y → f x ≤ f y) (hb : lower ≤ upper)
    (hl : z < lower → f lower ≤ lower) (hu : upper < z → upper ≤ f upper) :
    clampInt lower upper (f (clampInt lower upper z)) = clampInt lower upper (f z) := by
  rcases lt_or_ge z lower with hz | hlz
  · have hstep : f z ≤ lower := (hf z lower hz.le).trans (hl hz)
    rw [clampInt_of_le hb hz.le, clampInt_of_le hb (hl hz), clampInt_of_le hb hstep]
  · rcases lt_or_ge upper z with hz | hzu
    · have hstep : upper ≤ f z := (hu hz).trans (hf upper z hz.le)
      rw [clampInt_of_ge hb hz.le, clampInt_of_ge hb (hu hz), clampInt_of_ge hb hstep]
    · rw [clampInt_of_between hlz hzu]

end

/-! ### Steps that do not turn back -/

section

variable {lower upper c v : Int} {n : Nat}

/-- Additions that have crossed the lower bound go downwards there, -/
theorem add_le_of_crossed (hc : lower ≤ c) (h : c + n * v < lower) : lower + v ≤ lower := by
  by_contra hv
  have : 0 ≤ n * v := Int.mul_nonneg (Int.natCast_nonneg n) (by omega)
  omega

/-- and those that have crossed the upper bound go upwards there. -/
theorem le_add_of_crossed (hc : c ≤ upper) (h : upper < c + n * v) : upper ≤ upper + v := by
  by_contra hv
  have : n * v ≤ 0 := Int.mul_nonpos_of_nonneg_of_nonpos (Int.natCast_nonneg n) (by omega)
  omega

/-- Multiplications that have crossed the lower bound go downwards there, -/
theorem multiply_le_of_crossed (hv : 0 ≤ v) (hc : lower ≤ c) (h : c * v ^ n < lower) :
    lower * v ≤ lower := by
  rcases hv.eq_or_lt with rfl | hv
  · rcases n with _ | n
    · rw [pow_zero, mul_one] at h
      omega
    · rw [zero_pow n.succ_ne_zero, mul_zero] at h
      omega
  · rcases lt_or_ge lower 0 with hl | hl
    · calc
        lower * v ≤ lower * 1 := mul_le_mul_of_nonpos_left hv hl.le
        _ = lower := mul_one lower
    · have := le_mul_of_one_le_right (hl.trans hc) (one_le_pow₀ (n := n) hv)
      omega

/-- and those that have crossed the upper bound go upwards there. -/
theorem le_multiply_of_crossed (hv : 0 ≤ v) (hc : c ≤ upper) (h : upper < c * v ^ n) :
    upper ≤ upper * v := by
  have := multiply_le_of_crossed (n := n) hv (neg_le_neg hc) (by rw [neg_mul]; omega)
  rw [neg_mul] at this
  omega

end

/-! ### Presses -/

namespace Parameter

variable {p : Parameter} {t : Trigger}

/-- The value after a trigger has been fired `n` times, each time on the value that the time
before has given; none if one time gives no value. -/
def fireTimes? (p : Parameter) (t : Trigger) : Nat → Value → Option Value
  | 0, v => some v
  | n + 1, v => (p.fireTimes? t n v).bind (p.fire? t)

/-- In a run that goes on with one trigger, its values are held. -/
theorem play_append_replicate {events : List Trigger} {n : Nat} {v : Value}
    (h : p.fireTimes? t n (p.play events) = some v) :
    p.play (events ++ List.replicate n t) = v := by
  induction n generalizing v with
  | zero =>
    cases h
    rw [List.replicate_zero, List.append_nil]
  | succ n ih =>
    obtain ⟨u, hu, hv⟩ := Option.bind_eq_some_iff.1 h
    rw [List.replicate_succ', ← List.append_assoc, play_snoc, ih hu]
    exact next_of_fire? hv

/-- A trigger of a whole number gives the exact result between the bounds. -/
theorem exists_fire?_int {lower upper v : Word} {m : Modification} (hmin : p.min = .int lower)
    (hmax : p.max = .int upper) (ha : p.action? t = some ⟨.int v, m⟩) (x : Word) :
    ∃ w : Word, p.fire? t (.int x) = some (.int w) ∧
      w.val = clampInt lower.val upper.val (m.exact x.val v.val) := by
  obtain ⟨name, location, control⟩ := p
  cases control with
  | float c => cases hmin
  | bool c => cases hmin
  | int c =>
    obtain ⟨⟨y, n⟩, hget, hy⟩ := Option.map_eq_some_iff.1 ha
    cases hmin
    cases hmax
    cases hy
    exact ⟨c.apply ⟨y, n⟩ x, Control.fire?_eq_some_iff.2 ⟨_, x, hget, rfl, rfl⟩, c.val_apply _ x⟩

/-- Firing a trigger `n` times leads from the word `c` to the integer `z`: every time gives a
value, and a run that has come to `c` holds `z` after these events. -/
def LeadsTo (p : Parameter) (t : Trigger) (n : Nat) (c : Word) (z : Int) : Prop :=
  ∃ w : Word, w.val = z ∧ p.fireTimes? t n (.int c) = some (.int w) ∧
    ∀ events, p.play events = .int c → p.play (events ++ List.replicate n t) = .int w

/-- A step that does not turn back is made `n` times: the value is where the exact steps lead,
brought between the bounds. -/
theorem leadsTo_of_steps {lower upper c v : Word} {m : Modification} (hmin : p.min = .int lower)
    (hmax : p.max = .int upper) (ha : p.action? t = some ⟨.int v, m⟩)
    (hl : lower.val ≤ c.val) (hu : c.val ≤ upper.val) {z : Nat → Int} (hzero : z 0 = c.val)
    (hsucc : ∀ n, z (n + 1) = m.exact (z n) v.val)
    (hmono : ∀ x y, x ≤ y → m.exact x v.val ≤ m.exact y v.val)
    (hlower : ∀ n, z n < lower.val → m.exact lower.val v.val ≤ lower.val)
    (hupper : ∀ n, upper.val < z n → upper.val ≤ m.exact upper.val v.val) (n : Nat) :
    p.LeadsTo t n c (clampInt lower.val upper.val (z n)) := by
  have hfire : ∃ w : Word, w.val = clampInt lower.val upper.val (z n) ∧
      p.fireTimes? t n (.int c) = some (.int w) := by
    induction n with
    | zero => exact ⟨c, by rw [hzero, clampInt_of_between hl hu], rfl⟩
    | succ n ih =>
      obtain ⟨x, hx, hfired⟩ := ih
      obtain ⟨w, hw, hval⟩ := exists_fire?_int hmin hmax ha x
      refine ⟨w, ?_, by rw [fireTimes?, hfired, Option.bind_some, hw]⟩
      rw [hval, hx, hsucc]
      exact clampInt_clampInt hmono (hl.trans hu) (hlower n) (hupper n)
  obtain ⟨w, hw, hfired⟩ := hfire
  exact ⟨w, hw, hfired, fun events h => play_append_replicate (h ▸ hfired)⟩

/-- **Clamping at every press is clamping once at the end.** On a whole number, start between
bounds that are in order, and fire one trigger `n` times. If its action adds `v`, the value in the
end is `n` times `v` more than the start, brought between the bounds. If it multiplies by a `v`
that is not negative, it is the start times the `n`-th power of `v`, brought between the
bounds. -/
theorem repeated_fires_closed_form {lower upper c v : Word} (hmin : p.min = .int lower)
    (hmax : p.max = .int upper) (hl : lower.val ≤ c.val) (hu : c.val ≤ upper.val) (n : Nat) :
    (p.action? t = some ⟨.int v, .add⟩ →
      p.LeadsTo t n c (clampInt lower.val upper.val (c.val + n * v.val))) ∧
    (p.action? t = some ⟨.int v, .multiply⟩ → 0 ≤ v.val →
      p.LeadsTo t n c (clampInt lower.val upper.val (c.val * v.val ^ n))) := by
  constructor
  · intro ha
    refine leadsTo_of_steps (z := fun n => c.val + n * v.val) hmin hmax ha hl hu (by simp)
      (fun n => ?_) (fun x y hxy => Int.add_le_add_right hxy _)
      (fun n => add_le_of_crossed hl) (fun n => le_add_of_crossed hu) n
    simp only [Modification.exact]
    push_cast
    ring
  · intro ha hv
    refine leadsTo_of_steps (z := fun n => c.val * v.val ^ n) hmin hmax ha hl hu (by simp)
      (fun n => ?_) (fun x y hxy => Int.mul_le_mul_of_nonneg_right hxy hv)
      (fun n => multiply_le_of_crossed hv hl) (fun n => le_multiply_of_crossed hv hu) n
    simp only [Modification.exact]
    ring

/-- A script whose parameter is lowered by a slot and multiplied by a key. -/
def twoWays : String :=
  "#param n,0,int,7,-10,1000\n#paramprop n,OnSubtract,-3,add\n#keybinding n,Up,9,multiply"

/-- A thousand million events lower the value to its lower bound, and three presses exceed the upper
one on their way. -/
theorem repeated_fires_closed_form_crossed :
    ∃ d p, (Script.parse "f" twoWays).result = .ok d ∧ d.parameter? "n" = some p ∧
      p.play (List.replicate 1000000000 (.slot .onSubtract)) = .int ⟨-10, by decide, by decide⟩ ∧
      p.play (List.replicate 3 (.key ⟨24⟩)) = .int ⟨1000, by decide, by decide⟩ := by
  have hshown : ((Script.parse "f" twoWays).result.toOption.bind (·.parameter? "n")).map
      (fun p => (p.default, (p.min, p.max), p.action? (.slot .onSubtract), p.action? (.key ⟨24⟩))) =
      some (.int ⟨7, by decide, by decide⟩,
        (.int ⟨-10, by decide, by decide⟩, .int ⟨1000, by decide, by decide⟩),
        some ⟨.int ⟨-3, by decide, by decide⟩, .add⟩,
        some ⟨.int ⟨9, by decide, by decide⟩, .multiply⟩) := by decide +kernel
  obtain ⟨d, p, hd, hp, h⟩ := Script.exists_parameter hshown
  simp only [Prod.mk.injEq] at h
  obtain ⟨hdefault, ⟨hmin, hmax⟩, hadd, hmultiply⟩ := h
  have hl : (⟨-10, by decide, by decide⟩ : Word).val ≤ (⟨7, by decide, by decide⟩ : Word).val := by
    decide
  have hu : (⟨7, by decide, by decide⟩ : Word).val ≤ (⟨1000, by decide, by decide⟩ : Word).val := by
    decide
  obtain ⟨w, hw, -, hlowered⟩ :=
    (repeated_fires_closed_form hmin hmax hl hu 1000000000).1 hadd
  obtain ⟨x, hx, -, hmultiplied⟩ :=
    (repeated_fires_closed_form hmin hmax hl hu 3).2 hmultiply (by decide)
  refine ⟨d, p, hd, hp, ?_, ?_⟩
  · have hend := hlowered [] hdefault
    rw [List.nil_append] at hend
    rw [hend, Word.ext (a := w) (b := ⟨-10, by decide, by decide⟩) (hw.trans (by decide))]
  · have hend := hmultiplied [] hdefault
    rw [List.nil_append] at hend
    rw [hend, Word.ext (a := x) (b := ⟨1000, by decide, by decide⟩) (hx.trans (by decide))]

end Parameter

end ShaderFilter
