import ShaderFilter.Parameter
import ShaderFilter.Proofs.Number.Order

/-!
# Clamping

Values of one kind are ordered, apart from the float that is not a number, which is comparable
with nothing. Clamping compares twice, each time asking whether a bound is exceeded. So a
comparable value ends between bounds that are in order (`Scalar.clamp_mem`), or on one of
them where they are inverted (`Scalar.clamp_of_inverted`). What is not comparable exceeds no
bound and is left as it is (`Scalar.clamp_of_incomparable`).
-/

namespace ShaderFilter

open Number (Single Word)

/-! ### The order of values -/

namespace Value

/-- One value is at most another one of the same kind. -/
inductive Le : Value → Value → Prop where
  /-- Singles are in the order of the numbers they stand for. -/
  | float {x y : Single} : x ≤ y → Le (.float x) (.float y)
  /-- Words are in the order of the integers. -/
  | int {m n : Word} : m.val ≤ n.val → Le (.int m) (.int n)
  /-- False is below true. -/
  | bool {a b : Bool} : a ≤ b → Le (.bool a) (.bool b)

instance : LE Value := ⟨Le⟩

@[simp] theorem float_le_float {x y : Single} : float x ≤ float y ↔ x ≤ y :=
  ⟨fun | .float h => h, .float⟩

@[simp] theorem int_le_int {m n : Word} : int m ≤ int n ↔ m.val ≤ n.val :=
  ⟨fun | .int h => h, .int⟩

@[simp] theorem bool_le_bool {a b : Bool} : bool a ≤ bool b ↔ a ≤ b :=
  ⟨fun | .bool h => h, .bool⟩

instance : DecidableLE Value
  | .float _, .float _ => decidable_of_iff _ float_le_float.symm
  | .int _, .int _ => decidable_of_iff _ int_le_int.symm
  | .bool _, .bool _ => decidable_of_iff _ bool_le_bool.symm
  | .float _, .int _ => .isFalse nofun
  | .float _, .bool _ => .isFalse nofun
  | .int _, .float _ => .isFalse nofun
  | .int _, .bool _ => .isFalse nofun
  | .bool _, .float _ => .isFalse nofun
  | .bool _, .int _ => .isFalse nofun

/-- Only the float that is not a number is incomparable with itself. -/
theorem le_self_iff {v : Value} : v ≤ v ↔ v ≠ float .nan := by
  cases v with
  | float x => simp [Single.le_self_iff]
  | int n => simp
  | bool b => simp

/-- What is comparable with anything is comparable with itself. -/
theorem le_self_of_le {v w : Value} (h : v ≤ w) : v ≤ v ∧ w ≤ w := by
  cases h with
  | float h =>
    obtain ⟨hx, hy⟩ := Single.ne_nan_of_le h
    exact ⟨.float (Single.le_self_iff.2 hx), .float (Single.le_self_iff.2 hy)⟩
  | int _ => exact ⟨.int (Int.le_refl _), .int (Int.le_refl _)⟩
  | bool _ => exact ⟨.bool (Bool.le_refl _), .bool (Bool.le_refl _)⟩

theorem le_trans {u v w : Value} (huv : u ≤ v) (hvw : v ≤ w) : u ≤ w := by
  cases huv with
  | float h => cases hvw with | float h' => exact .float (Single.le_trans h h')
  | int h => cases hvw with | int h' => exact .int (Int.le_trans h h')
  | bool h => cases hvw with | bool h' => exact .bool (Bool.le_trans h h')

/-- Values of one kind that are comparable with themselves are comparable. -/
theorem le_total {v w : Value} (hk : v.kind = w.kind) (hv : v ≤ v) (hw : w ≤ w) :
    v ≤ w ∨ w ≤ v := by
  cases hv with
  | float hx =>
    cases hw with
    | float hy =>
      exact (Single.le_total (Single.le_self_iff.1 hx) (Single.le_self_iff.1 hy)).imp
        .float .float
    | int _ => cases hk
    | bool _ => cases hk
  | int _ =>
    cases hw with
    | int _ => exact (Int.le_total _ _).imp .int .int
    | float _ => cases hk
    | bool _ => cases hk
  | bool _ =>
    cases hw with
    | bool _ => exact (Bool.le_total _ _).imp .bool .bool
    | float _ => cases hk
    | int _ => cases hk

end Value

/-! ### Scalars as values -/

/-- Scalars whose values are of their kind, and whose comparison is the strict order of these. -/
class LawfulScalar (α : Type) [Scalar α] : Prop where
  /-- The value of a scalar is of the kind of its type. -/
  kind_toValue (x : α) : (Scalar.toValue x).kind = Scalar.kind α
  /-- Every value of the kind is that of a scalar. -/
  exists_toValue {v : Value} : v.kind = Scalar.kind α → ∃ x : α, v = Scalar.toValue x
  /-- A scalar is found in its value, and nowhere else. -/
  ofValue?_eq_some_iff {v : Value} {x : α} : Scalar.ofValue? v = some x ↔ v = Scalar.toValue x
  /-- The comparison is the strict order. -/
  less_iff {x y : α} : Scalar.less x y = true ↔
    Scalar.toValue x ≤ Scalar.toValue y ∧ ¬ Scalar.toValue y ≤ Scalar.toValue x

instance : LawfulScalar Single where
  kind_toValue _ := rfl
  exists_toValue {v} hk := by
    cases v with
    | float x => exact ⟨x, rfl⟩
    | _ => cases hk
  ofValue?_eq_some_iff {v x} := by cases v <;> simp [Scalar.ofValue?, Scalar.toValue]
  less_iff := by simp [Scalar.less, Scalar.toValue, Single.less_iff]

instance : LawfulScalar Word where
  kind_toValue _ := rfl
  exists_toValue {v} hk := by
    cases v with
    | int x => exact ⟨x, rfl⟩
    | _ => cases hk
  ofValue?_eq_some_iff {v x} := by cases v <;> simp [Scalar.ofValue?, Scalar.toValue]
  less_iff := by
    simp [Scalar.less, Word.less, Scalar.toValue]
    omega

instance : LawfulScalar Bool where
  kind_toValue _ := rfl
  exists_toValue {v} hk := by
    cases v with
    | bool x => exact ⟨x, rfl⟩
    | _ => cases hk
  ofValue?_eq_some_iff {v x} := by cases v <;> simp [Scalar.ofValue?, Scalar.toValue]
  less_iff {x y} := by cases x <;> cases y <;> decide

namespace Scalar

variable {α : Type} [Scalar α] [LawfulScalar α] {lower upper x : α}

theorem le_of_not_less {x y : α} (hx : toValue x ≤ toValue x) (hy : toValue y ≤ toValue y)
    (h : ¬ less x y = true) : toValue y ≤ toValue x := by
  have hk := (LawfulScalar.kind_toValue x).trans (LawfulScalar.kind_toValue y).symm
  rw [LawfulScalar.less_iff, not_and_not_right] at h
  exact (Value.le_total hk hx hy).elim h id

/-- A comparable value is clamped to a place between the bounds. -/
theorem clamp_mem (hb : toValue lower ≤ toValue upper) (hx : toValue x ≤ toValue x) :
    toValue lower ≤ toValue (clamp lower upper x) ∧
      toValue (clamp lower upper x) ≤ toValue upper := by
  obtain ⟨hl, hu⟩ := Value.le_self_of_le hb
  unfold clamp
  split
  · exact ⟨hl, hb⟩
  · next hlower =>
    split
    · exact ⟨hb, hu⟩
    · next hupper => exact ⟨le_of_not_less hx hl hlower, le_of_not_less hu hx hupper⟩

/-- Between inverted bounds there is no place, and every comparable value exceeds one of them. -/
theorem clamp_of_inverted (hl : toValue lower ≤ toValue lower) (hu : toValue upper ≤ toValue upper)
    (hb : ¬ toValue lower ≤ toValue upper) (hx : toValue x ≤ toValue x) :
    clamp lower upper x = lower ∨ clamp lower upper x = upper := by
  unfold clamp
  split
  · exact .inl rfl
  · next hlower =>
    split
    · exact .inr rfl
    · next hupper =>
      exact absurd (Value.le_trans (le_of_not_less hx hl hlower) (le_of_not_less hu hx hupper)) hb

/-- What is not comparable exceeds no bound. -/
theorem clamp_of_incomparable (hx : ¬ toValue x ≤ toValue x) : clamp lower upper x = x := by
  have hlower : ¬ less x lower = true := fun h =>
    hx (Value.le_self_of_le (LawfulScalar.less_iff.1 h).1).1
  have hupper : ¬ less upper x = true := fun h =>
    hx (Value.le_self_of_le (LawfulScalar.less_iff.1 h).1).2
  rw [clamp, if_neg hlower, if_neg hupper]

end Scalar

end ShaderFilter
