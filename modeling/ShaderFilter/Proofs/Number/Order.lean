import ShaderFilter.Number.Single
import Mathlib.Order.Monotone.Basic

/-!
# The order of singles

Singles are compared by their places, which number the magnitudes without computing them. The
order that is meant is the one of the numbers that singles stand for (`Single.Le`): exact
integers of units between the two infinities, where what is not a number is comparable with
nothing. The two agree because magnitudes grow with their ranks.
-/

namespace ShaderFilter.Number.Single

/-! ### Magnitudes grow with their ranks -/

theorem magnitude_zero : magnitude 0 = 0 := by decide

/-- A rank is a multiple of the scale size and what is left; below the first multiple the
magnitudes are the ranks. -/
theorem magnitude_of_scale (q m : Nat) (hm : m < scaleSize) :
    magnitude (q * scaleSize + m) =
      if q = 0 then m else (scaleSize + m) * Nat.pow 2 (q - 1) := by
  have hdiv : (q * scaleSize + m) / scaleSize = q := by
    unfold scaleSize at *
    omega
  have hmod : (q * scaleSize + m) % scaleSize = m := by
    unfold scaleSize at *
    omega
  have hlt : q * scaleSize + m < scaleSize ↔ q = 0 := by
    unfold scaleSize at *
    omega
  unfold magnitude significand scale
  simp only [hdiv, hmod, hlt]
  by_cases hq : q = 0
  · simp [hq]
  · simp [hq]

/-- Each magnitude is followed by the next one at the spacing of its scale. -/
theorem magnitude_succ (r : Nat) : magnitude (r + 1) = magnitude r + Nat.pow 2 (scale r) := by
  obtain ⟨q, m, hm, rfl⟩ : ∃ q m, m < scaleSize ∧ r = q * scaleSize + m :=
    ⟨r / scaleSize, r % scaleSize, Nat.mod_lt _ (by decide), (Nat.div_add_mod' r scaleSize).symm⟩
  have hscale : scale (q * scaleSize + m) = q - 1 := by
    unfold scale scaleSize at *
    omega
  rw [hscale, magnitude_of_scale q m hm]
  by_cases hlast : m + 1 < scaleSize
  · rw [Nat.add_assoc, magnitude_of_scale q (m + 1) hlast]
    split
    · rename_i hq
      simp [hq]
    · rw [← Nat.add_assoc, Nat.succ_mul]
  · -- The next rank is the first one with twice the spacing.
    have hnext : q * scaleSize + m + 1 = (q + 1) * scaleSize + 0 := by
      rw [Nat.succ_mul]
      omega
    rw [hnext, magnitude_of_scale (q + 1) 0 (by decide)]
    simp only [Nat.add_one_ne_zero, if_false, Nat.add_sub_cancel, Nat.add_zero]
    split
    · rename_i hq
      simp only [hq, Nat.pow_eq, Nat.zero_sub, Nat.pow_zero, Nat.mul_one]
      omega
    · rename_i hq
      obtain ⟨k, rfl⟩ := Nat.exists_eq_add_one_of_ne_zero hq
      have hpow : Nat.pow 2 (k + 1) = 2 * Nat.pow 2 k := Nat.pow_succ'
      have hsize : scaleSize * 2 = scaleSize + m + 1 := by omega
      rw [Nat.add_sub_cancel, hpow, ← Nat.mul_assoc, hsize, Nat.succ_mul]

theorem magnitude_lt_succ (r : Nat) : magnitude r < magnitude (r + 1) := by
  rw [magnitude_succ]
  exact Nat.lt_add_of_pos_right (Nat.two_pow_pos _)

theorem magnitude_strictMono : StrictMono magnitude := strictMono_nat_of_lt_succ magnitude_lt_succ

/-! ### Numbers -/

/-- One number is at most another one. What is not a number is comparable with nothing, not even
with itself. -/
inductive Le : Single → Single → Prop where
  /-- The negative infinity is at most every number. -/
  | least {y : Single} : y ≠ .nan → Le (.infinite true) y
  /-- Every number is at most the positive infinity. -/
  | greatest {x : Single} : x ≠ .nan → Le x (.infinite false)
  /-- Finite numbers are compared as integers of units. -/
  | finite {s t : Bool} {a b : Fin rankLimit} :
      signed s (magnitude a) ≤ signed t (magnitude b) → Le (.finite s a) (.finite t b)

instance : LE Single := ⟨Le⟩

theorem signed_le_signed {f : Nat → Nat} (hf : StrictMono f) (h0 : f 0 = 0) (s t : Bool)
    (a b : Nat) : signed s (f a) ≤ signed t (f b) ↔ signed s a ≤ signed t b := by
  have hab : f a ≤ f b ↔ a ≤ b := hf.le_iff_le
  have hba : f b ≤ f a ↔ b ≤ a := hf.le_iff_le
  have ha : f a ≤ f 0 ↔ a ≤ 0 := hf.le_iff_le
  have hb : f b ≤ f 0 ↔ b ≤ 0 := hf.le_iff_le
  cases s <;> cases t <;> simp only [signed, Bool.false_eq_true, if_true, if_false] <;> omega

/-- Finite numbers have their places between those of the infinities. -/
theorem place_bounds (s : Bool) (r : Fin rankLimit) :
    signed true rankLimit < signed s r ∧ signed s r < signed false rankLimit := by
  have hr := r.isLt
  cases s <;> simp only [signed, Bool.false_eq_true, if_true, if_false] <;> omega

/-- Numbers have places, and no place is outside those of the infinities. -/
theorem exists_place {x : Single} (hx : x ≠ .nan) :
    ∃ a, x.place? = some a ∧ signed true rankLimit ≤ a ∧ a ≤ signed false rankLimit := by
  cases x with
  | nan => exact absurd rfl hx
  | infinite s => exact ⟨_, rfl, by cases s <;> decide⟩
  | finite s r => exact ⟨_, rfl, (place_bounds s r).1.le, (place_bounds s r).2.le⟩

theorem ne_nan_of_place {x : Single} {a : Int} (h : x.place? = some a) : x ≠ .nan := by
  rintro rfl
  cases h

/-- Places are in the order of the numbers. -/
theorem le_iff_place {x y : Single} :
    x ≤ y ↔ ∃ a b, x.place? = some a ∧ y.place? = some b ∧ a ≤ b := by
  constructor
  · intro h
    cases h with
    | least hy =>
      obtain ⟨b, hb, hl, -⟩ := exists_place hy
      exact ⟨_, b, rfl, hb, hl⟩
    | greatest hx =>
      obtain ⟨a, ha, -, hg⟩ := exists_place hx
      exact ⟨a, _, ha, rfl, hg⟩
    | finite h =>
      exact ⟨_, _, rfl, rfl, (signed_le_signed magnitude_strictMono magnitude_zero _ _ _ _).1 h⟩
  · rintro ⟨a, b, ha, hb, hab⟩
    have hx := ne_nan_of_place ha
    have hy := ne_nan_of_place hb
    cases x with
    | nan => exact absurd rfl hx
    | infinite s =>
      cases s with
      | true => exact .least hy
      | false =>
        -- No other place is as great as that of the positive infinity.
        cases ha
        cases y with
        | nan => exact absurd rfl hy
        | infinite t => cases t with
          | false => exact .greatest hx
          | true => cases hb; exact absurd hab (by decide)
        | finite t r => cases hb; exact absurd hab (place_bounds t r).2.not_ge
    | finite s r =>
      cases ha
      cases y with
      | nan => exact absurd rfl hy
      | infinite t => cases t with
        | false => exact .greatest hx
        | true => cases hb; exact absurd hab (place_bounds s r).1.not_ge
      | finite t q =>
        cases hb
        exact .finite ((signed_le_signed magnitude_strictMono magnitude_zero _ _ _ _).2 hab)

/-- The comparison of singles is the strict order of the numbers. -/
theorem less_iff {x y : Single} : less x y = true ↔ x ≤ y ∧ ¬ y ≤ x := by
  rw [le_iff_place, le_iff_place]
  unfold less
  cases x.place? <;> cases y.place? <;> simp
  omega

theorem le_self_iff {x : Single} : x ≤ x ↔ x ≠ .nan := by
  rw [le_iff_place]
  cases x <;> simp [place?]

theorem le_trans {x y z : Single} (hxy : x ≤ y) (hyz : y ≤ z) : x ≤ z := by
  obtain ⟨a, b, ha, hb, hab⟩ := le_iff_place.1 hxy
  obtain ⟨b', c, hb', hc, hbc⟩ := le_iff_place.1 hyz
  cases hb.symm.trans hb'
  exact le_iff_place.2 ⟨a, c, ha, hc, hab.trans hbc⟩

/-- Two numbers are comparable. -/
theorem le_total {x y : Single} (hx : x ≠ .nan) (hy : y ≠ .nan) : x ≤ y ∨ y ≤ x := by
  obtain ⟨a, ha, -⟩ := exists_place hx
  obtain ⟨b, hb, -⟩ := exists_place hy
  rcases Int.le_total a b with h | h
  · exact .inl (le_iff_place.2 ⟨a, b, ha, hb, h⟩)
  · exact .inr (le_iff_place.2 ⟨b, a, hb, ha, h⟩)

/-- Only numbers are comparable. -/
theorem ne_nan_of_le {x y : Single} (h : x ≤ y) : x ≠ .nan ∧ y ≠ .nan := by
  obtain ⟨_, _, ha, hb, -⟩ := le_iff_place.1 h
  exact ⟨ne_nan_of_place ha, ne_nan_of_place hb⟩

instance : DecidableLE Single := fun x y =>
  decidable_of_iff (x ≠ .nan ∧ y ≠ .nan ∧ less y x = false) <| by
    rw [← Bool.not_eq_true, less_iff, not_and_not_right]
    constructor
    · rintro ⟨hx, hy, h⟩
      exact (le_total hx hy).elim id h
    · intro h
      exact ⟨(ne_nan_of_le h).1, (ne_nan_of_le h).2, fun _ => h⟩

end ShaderFilter.Number.Single
