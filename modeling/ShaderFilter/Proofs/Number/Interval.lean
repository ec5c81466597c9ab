import ShaderFilter.Number.Shortest
import ShaderFilter.Proofs.Number.Order
import Mathlib.Algebra.Group.Nat.Defs

/-!
# Rounding intervals

The decimals that are rounded to a magnitude lie in an interval around it. An interval ends where
the one of the next rank begins, and of these two only one has its ends. So no decimal lies in
two intervals (`eq_of_contains`), and a decimal that is chosen from one of them
(`contains_shortest`) belongs to that rank alone.
-/

namespace ShaderFilter.Number

open Single (scale scaleSize significand magnitude)

/-! ### Choosing from an interval -/

namespace Interval

theorem contains_iff {i : Interval} {n : Nat} :
    i.contains n = true ↔
      i.low ≤ n ∧ n ≤ i.high ∧ (i.closed = true ∨ i.low ≠ n ∧ n ≠ i.high) := by
  unfold contains
  cases i.closed <;> simp
  omega

theorem nearer_eq (i : Interval) (tie : Tie) (step c : Nat) :
    i.nearer tie step c = c ∨ i.nearer tie step c = c + 1 := by
  unfold nearer
  cases tie <;> grind

/-- What is chosen from a grid is on the grid and in the interval. -/
theorem contains_of_onGrid? {i : Interval} {tie : Tie} {step c : Nat}
    (h : i.onGrid? tie step = some c) : i.contains (c * step) = true := by
  simp only [onGrid?] at h
  split at h
  · rename_i hbelow habove
    cases h
    rcases nearer_eq i tie step (i.value / step) with hc | hc <;> rw [hc] <;> assumption
  · cases h
    assumption
  · cases h
    assumption
  · cases h

theorem contains_search {i : Interval} (hi : i.contains i.value = true) (tie : Tie) (k : Nat) :
    i.contains ((i.search tie k).1 * 10 ^ (i.search tie k).2) = true := by
  induction k with
  | zero => simpa [search] using hi
  | succ k ih =>
    unfold search
    split
    · rename_i hc
      exact contains_of_onGrid? hc
    · exact ih

/-- The shortest decimal is in the interval, if the interval contains its own number. -/
theorem contains_shortest {i : Interval} (hi : i.contains i.value = true) (tie : Tie) :
    i.contains ((i.shortest tie).1 * 10 ^ (i.shortest tie).2) = true :=
  contains_search hi tie _

end Interval

/-! ### Intervals of neighbouring ranks -/

/-- The distance of a magnitude to the lower end of its interval, in quarters of a unit. -/
def reach (r : Nat) : Nat :=
  if significand r = scaleSize ∧ 0 < scale r then Nat.pow 2 (scale r) else 2 * Nat.pow 2 (scale r)

theorem reach_pos (r : Nat) : 0 < reach r := by
  have hpow : 0 < Nat.pow 2 (scale r) := Nat.two_pow_pos _
  unfold reach
  split <;> omega

/-- The lower half of an interval is as long as the upper half of the one before. -/
theorem reach_succ (r : Nat) : reach (r + 1) = 2 * Nat.pow 2 (scale r) := by
  unfold reach
  by_cases hfirst : significand (r + 1) = scaleSize ∧ 0 < scale (r + 1)
  · have hscale : scale (r + 1) = scale r + 1 := by
      unfold significand scale scaleSize at *
      split at hfirst <;> omega
    rw [if_pos hfirst, hscale]
    exact Nat.pow_succ'
  · have hscale : scale (r + 1) = scale r := by
      unfold significand scale scaleSize at *
      split at hfirst <;> omega
    rw [if_neg hfirst, hscale]

theorem reach_le (r : Nat) : reach (r + 1) ≤ 4 * magnitude (r + 1) := by
  rw [reach_succ, Single.magnitude_succ]
  omega

theorem low_roundingInterval (r : Nat) :
    (roundingInterval r).low = (4 * magnitude r - reach r) * Nat.pow 5 places := rfl

theorem high_roundingInterval (r : Nat) :
    (roundingInterval r).high =
      (4 * magnitude r + 2 * Nat.pow 2 (scale r)) * Nat.pow 5 places := rfl

theorem value_roundingInterval (r : Nat) :
    (roundingInterval r).value = 4 * magnitude r * Nat.pow 5 places := rfl

/-- An interval ends where the one of the next rank begins. -/
theorem high_eq_low_succ (r : Nat) :
    (roundingInterval r).high = (roundingInterval (r + 1)).low := by
  rw [high_roundingInterval, low_roundingInterval, reach_succ, Single.magnitude_succ]
  congr 1
  omega

theorem five_pow_places_pos : 0 < Nat.pow 5 places := Nat.pow_pos (by decide)

theorem low_le_value (r : Nat) : (roundingInterval r).low ≤ (roundingInterval r).value :=
  Nat.mul_le_mul_right _ (Nat.sub_le _ _)

theorem value_lt_high (r : Nat) : (roundingInterval r).value < (roundingInterval r).high :=
  Nat.mul_lt_mul_of_pos_right
    (Nat.lt_add_of_pos_right (Nat.mul_pos Nat.two_pos (Nat.two_pow_pos _))) five_pow_places_pos

/-- Only the interval of zero begins at its own number. -/
theorem low_lt_value (r : Nat) :
    (roundingInterval (r + 1)).low < (roundingInterval (r + 1)).value :=
  Nat.mul_lt_mul_of_pos_right
    (Nat.sub_lt_self (reach_pos _) (reach_le r)) five_pow_places_pos

/-- A magnitude is rounded to itself. -/
theorem contains_value (r : Nat) :
    (roundingInterval r).contains (roundingInterval r).value = true := by
  refine Interval.contains_iff.2 ⟨low_le_value r, (value_lt_high r).le, ?_⟩
  cases r with
  | zero => exact .inl rfl
  | succ r => exact .inr ⟨(low_lt_value r).ne, (value_lt_high _).ne⟩

theorem low_strictMono : StrictMono fun r => (roundingInterval r).low :=
  strictMono_nat_of_lt_succ fun r =>
    ((low_le_value r).trans_lt (value_lt_high r)).trans_eq (high_eq_low_succ r)

/-- Of two neighbours only one has its ends. -/
theorem closed_succ (r : Nat) :
    (roundingInterval (r + 1)).closed = !(roundingInterval r).closed := by
  have hparity (q : Nat) : significand q % 2 = q % 2 := by
    unfold significand scaleSize
    split <;> omega
  simp only [roundingInterval, hparity]
  grind

theorem not_contains_of_lt {r q n : Nat} (hrq : r < q)
    (hr : (roundingInterval r).contains n = true) :
    (roundingInterval q).contains n = false := by
  rw [Bool.eq_false_iff]
  intro hq
  obtain ⟨-, hhigh, hendr⟩ := Interval.contains_iff.1 hr
  obtain ⟨hlow, -, hendq⟩ := Interval.contains_iff.1 hq
  -- The number is both the end of the lower interval and the beginning of the other one.
  rw [high_eq_low_succ] at hhigh hendr
  have hle := low_strictMono.monotone (Nat.succ_le_of_lt hrq)
  have hn : (roundingInterval (r + 1)).low = n := le_antisymm (hle.trans hlow) hhigh
  have hnq : (roundingInterval q).low = n := le_antisymm hlow (hhigh.trans hle)
  obtain rfl : r + 1 = q := low_strictMono.injective (hn.trans hnq.symm)
  have hclosed := closed_succ r
  simp only [hn, ne_eq, not_true_eq_false, and_false, false_and, or_false] at hendr hendq
  rw [hendr, hendq] at hclosed
  cases hclosed

/-- **No decimal is rounded to two magnitudes.** -/
theorem eq_of_contains {r q n : Nat} (hr : (roundingInterval r).contains n = true)
    (hq : (roundingInterval q).contains n = true) : r = q := by
  rcases Nat.lt_trichotomy r q with h | h | h
  · rw [not_contains_of_lt h hr] at hq
    cases hq
  · exact h
  · rw [not_contains_of_lt h hq] at hr
    cases hr

end ShaderFilter.Number
