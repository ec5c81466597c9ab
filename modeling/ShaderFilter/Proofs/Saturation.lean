import ShaderFilter.Parameter

/-!
# Saturation

An action on a whole number computes in words: a sum or a product outside the range of words
becomes the nearer limit, and is then brought between the bounds of the parameter. The limits
leave no trace. Bounds are words themselves, so what exceeds a limit exceeds the same bounds as
the limit does (`clampInt_saturate`), and the value is the exact result, computed in integers and
brought between the bounds (`Control.val_apply`). This holds for inverted bounds too, since both
clamps look at the lower bound first.
-/

namespace ShaderFilter

open Number (Word)

/-- An integer brought between two bounds; the lower bound is looked at first. -/
def clampInt (lower upper z : Int) : Int :=
  if z < lower then lower else if upper < z then upper else z

/-- The exact result of a modification. -/
def Modification.exact (m : Modification) (current value : Int) : Int :=
  match m with
  | .add => current + value
  | .multiply => current * value
  | .set => value

/-- Words are modified exactly, and then saturated. -/
theorem modify_eq_saturate (m : Modification) (x y : Word) :
    Scalar.modify m x y = Word.saturate (m.exact x.val y.val) := by
  cases m with
  | add => rfl
  | multiply => rfl
  | set => exact (Word.saturate_val y).symm

/-- Clamping a word is clamping its integer. -/
theorem val_clamp (lower upper x : Word) :
    (Scalar.clamp lower upper x).val = clampInt lower.val upper.val x.val := by
  simp only [Scalar.clamp, Scalar.less, Word.less, clampInt, decide_eq_true_eq]
  split
  · rfl
  · split <;> rfl

/-- What exceeds a limit of words exceeds the same bounds as the limit. -/
theorem clampInt_saturate (lower upper : Word) (z : Int) :
    clampInt lower.val upper.val (Word.saturate z).val = clampInt lower.val upper.val z := by
  have := lower.least_le
  have := lower.le_greatest
  have := upper.least_le
  have := upper.le_greatest
  unfold Word.saturate
  split
  · simp only [clampInt, Word.least]
    omega
  · split
    · simp only [clampInt, Word.greatest]
      omega
    · rfl

/-- An action on a whole number ends at the exact result between the bounds. -/
theorem Control.val_apply (c : Control Word) (a : Action Word) (x : Word) :
    (c.apply a x).val =
      clampInt c.min.val c.max.val (a.modification.exact x.val a.value.val) := by
  rw [apply, Action.apply, modify_eq_saturate, val_clamp, clampInt_saturate]

/-- **Whole numbers are computed exactly.** Whatever the bounds, the current value and the action
are, the action gives the exact result brought between the bounds. This is a word, so no action
wraps; and it is what the saturated result becomes between the bounds, so to saturate before
clamping is as good as to clamp the exact result. -/
theorem apply_computes_exactly (c : Control Word) (a : Action Word) (x : Word) :
    let z := a.modification.exact x.val a.value.val
    (c.apply a x).val = clampInt c.min.val c.max.val z ∧
      (-2147483648 ≤ clampInt c.min.val c.max.val z ∧
        clampInt c.min.val c.max.val z ≤ 2147483647) ∧
      clampInt c.min.val c.max.val (Word.saturate z).val = clampInt c.min.val c.max.val z := by
  intro z
  have hval : (c.apply a x).val = clampInt c.min.val c.max.val z := c.val_apply a x
  exact ⟨hval, hval ▸ ⟨(c.apply a x).least_le, (c.apply a x).le_greatest⟩,
    clampInt_saturate c.min c.max z⟩

/-- The square of the greatest word exceeds the upper one of two inverted bounds. -/
example : clampInt 5 (-5) (Modification.multiply.exact 2147483647 2147483647) = -5 := by decide

end ShaderFilter
