import ShaderFilter.Number.Style
import ShaderFilter.Proofs.Number.Digits
import ShaderFilter.Proofs.Number.Interval

/-!
# Written singles

In every style the text of a finite single is a decimal notation of a number in the rounding
interval of its rank (`exists_denotes`), whatever its layout. A notation can be read in one way
only, and no number lies in two intervals, so that no two singles have the same text
(`finiteText_injective`).
-/

namespace ShaderFilter.Number

open Single (exponent?)

/-! ### Decimal notations -/

/-- A decimal notation without a sign, and what it stands for in units of `10 ^ -places`. -/
inductive Denotes : List Char → Nat → Prop where
  /-- Digits without a point. -/
  | whole {a e : List Char} {n : Int} {k : Nat} : Digits a → exponent? e = some n →
      (k : Int) = n + places → Denotes (a ++ e) (digitsValue a * 10 ^ k)
  /-- Digits with a point behind one of them. -/
  | point {a b e : List Char} {n : Int} {k : Nat} : Digits a → (∀ c ∈ b, c.isDigit) →
      exponent? e = some n → (k : Int) + b.length = n + places →
      Denotes (a ++ '.' :: b ++ e) (digitsValue (a ++ b) * 10 ^ k)

theorem exponent_of_eq_some {e : List Char} {n : Int} (h : exponent? e = some n) : Exponent e :=
  Single.exponent?_isSome.1 (Option.isSome_iff_exists.2 ⟨n, h⟩)

namespace Denotes

/-- How a notation is read: the digits before the point, those behind it, and the exponent. -/
theorem read {cs : List Char} {v : Nat} (h : Denotes cs v) :
    ∃ (a b e : List Char) (n : Int) (k : Nat), cs.takeWhile Char.isDigit = a ∧
      Single.splitFraction (cs.dropWhile Char.isDigit) = (b, e) ∧ exponent? e = some n ∧
      (k : Int) + b.length = n + places ∧ v = digitsValue (a ++ b) * 10 ^ k := by
  cases h with
  | @whole a e n k ha he hk =>
    obtain ⟨ht, hr⟩ := Single.cut_whole ha.2 (exponent_of_eq_some he)
    exact ⟨a, [], e, n, k, ht, hr, he, by simpa using hk, by rw [List.append_nil]⟩
  | @point a b e n k ha hb he hk =>
    obtain ⟨ht, hr⟩ := Single.cut_point ha.2 hb (exponent_of_eq_some he)
    exact ⟨a, b, e, n, k, ht, hr, he, hk, rfl⟩

/-- A notation stands for one number. -/
theorem unique {cs : List Char} {v w : Nat} (hv : Denotes cs v) (hw : Denotes cs w) : v = w := by
  obtain ⟨a, b, e, n, k, rfl, hb, he, hk, rfl⟩ := hv.read
  obtain ⟨_, b', e', n', k', rfl, hb', he', hk', rfl⟩ := hw.read
  obtain ⟨rfl, rfl⟩ := Prod.mk.inj (hb.symm.trans hb')
  obtain rfl := Option.some.inj (he.symm.trans he')
  obtain rfl : k = k' := by omega
  rfl

theorem ne_nil {cs : List Char} {v : Nat} (h : Denotes cs v) : cs ≠ [] := by
  cases h with
  | whole ha _ _ => exact List.append_ne_nil_of_left_ne_nil ha.1 _
  | point => simp

theorem magnitude {cs : List Char} {v : Nat} (h : Denotes cs v) : Magnitude cs := by
  cases h with
  | whole ha he _ => exact .decimal (.whole ha) (exponent_of_eq_some he)
  | point ha hb he _ => exact .decimal (.point ha.2 hb (.inl ha.1)) (exponent_of_eq_some he)

theorem numberChar {cs : List Char} {v : Nat} (h : Denotes cs v) : ∀ c ∈ cs, NumberChar c := by
  have hdigits {ds : List Char} (hd : ∀ c ∈ ds, c.isDigit) : ∀ c ∈ ds, NumberChar c :=
    fun c hc => .inl (hd c hc)
  have hexponent {e : List Char} {n : Int} (he : exponent? e = some n) :
      ∀ c ∈ e, NumberChar c := by
    cases exponent_of_eq_some he with
    | missing => nofun
    | written hc hn =>
      refine List.forall_mem_cons.2 ⟨.inr ?_, hn.numberChar⟩
      rcases hc with rfl | rfl <;> decide
  cases h with
  | whole ha he _ => exact List.forall_mem_append.2 ⟨hdigits ha.2, hexponent he⟩
  | point ha hb he _ =>
    rw [List.append_assoc]
    refine List.forall_mem_append.2 ⟨hdigits ha.2, List.forall_mem_append.2 ⟨?_, hexponent he⟩⟩
    exact List.forall_mem_cons.2 ⟨.inr (by decide), hdigits hb⟩

end Denotes

theorem contains_zero : (roundingInterval 0).contains 0 = true := by
  have h := contains_value 0
  rwa [value_roundingInterval, Single.magnitude_zero, Nat.mul_zero, Nat.zero_mul] at h

/-! ### The layouts -/

namespace Scientific

/-- A decimal with digits, and what it stands for in units of `10 ^ -places`. -/
structure Means (s : Scientific) (v : Nat) : Prop where
  /-- There is a digit, and there is nothing else. -/
  digits : Digits s.digits
  /-- The value of the digits, moved to where the exponent puts the first one. -/
  value : ∃ k : Nat, (k : Int) + s.digits.length = s.exponent + 1 + places ∧
    v = digitsValue s.digits * 10 ^ k

/-- The digits of a number are its digits up to the last one that is not a zero, and zeros. -/
theorem exists_zeros (cs : List Char) :
    ∃ z, cs = (cs.reverse.dropWhile (· == '0')).reverse ++ List.replicate z '0' := by
  have hcs := congrArg List.reverse
    (List.takeWhile_append_dropWhile (p := (· == '0')) (l := cs.reverse))
  rw [List.reverse_append, List.reverse_reverse] at hcs
  refine ⟨(cs.reverse.takeWhile (· == '0')).length, hcs.symm.trans (congrArg _ ?_)⟩
  rw [← List.length_reverse]
  refine List.eq_replicate_of_mem fun c hc => ?_
  simpa using List.all_eq_true.1 List.all_takeWhile c (List.mem_reverse.1 hc)

/-- A coefficient without its last zeros, which go into the exponent. -/
theorem means_stripped {c : Nat} (hc : c ≠ 0) (p : Nat) :
    Means
      { digits := ((Number.digits c).reverse.dropWhile (· == '0')).reverse
        exponent := p + ((Number.digits c).length - 1 : Nat) - places } (c * 10 ^ p) := by
  obtain ⟨z, hz⟩ := exists_zeros (Number.digits c)
  have hv := digitsValue_digits c
  have hd := digits_spec c
  generalize ((Number.digits c).reverse.dropWhile (· == '0')).reverse = ds at hz ⊢
  rw [hz] at hv hd ⊢
  rw [digitsValue_append_zeros] at hv
  refine ⟨⟨?_, fun a ha => hd.2 a (List.mem_append_left _ ha)⟩, p + z, ?_, ?_⟩
  · rintro rfl
    exact hc (hv.symm.trans (by simp [digitsValue]))
  · have := List.length_pos_iff.2 hd.1
    simp only [List.length_append, List.length_replicate] at this ⊢
    omega
  · rw [← hv, Nat.pow_add, Nat.mul_comm (10 ^ p), Nat.mul_assoc]

/-- The definition as an equation of functions: at a rank its two sides would be compared by
computing the interval. -/
theorem ofRank_def : ofRank = fun tie r =>
    let (coefficient, power) := (roundingInterval r).shortest tie
    let ds := Number.digits coefficient
    { digits := (ds.reverse.dropWhile (· == '0')).reverse
      exponent := power + (ds.length - 1 : Nat) - places } := rfl

/-- The decimal for a rank stands for a number in the interval of the rank. -/
theorem exists_means_ofRank (tie : Tie) {r : Nat} (hr : r ≠ 0) :
    ∃ v, (ofRank tie r).Means v ∧ (roundingInterval r).contains v = true := by
  have hin := Interval.contains_shortest (contains_value r) tie
  rw [ofRank_def]
  beta_reduce
  generalize (roundingInterval r).shortest tie = x at hin ⊢
  obtain ⟨c, p⟩ := x
  have hc : c ≠ 0 := by
    rintro rfl
    rw [Nat.zero_mul] at hin
    exact hr (eq_of_contains hin contains_zero)
  exact ⟨c * 10 ^ p, means_stripped hc p, hin⟩

end Scientific

namespace Style

/-- The point stands before the digits, and zeros between the two. -/
theorem denotes_before {ds : List Char} {k m : Nat} (hd : Digits ds)
    (hk : k + (m + ds.length) = places) :
    Denotes (['0', '.'] ++ List.replicate m '0' ++ ds) (digitsValue ds * 10 ^ k) := by
  have hfraction : ∀ c ∈ List.replicate m '0' ++ ds, c.isDigit :=
    fun c hc => (List.mem_append.1 hc).elim isDigit_of_mem_zeros (hd.2 c)
  have h := Denotes.point (e := []) (n := 0) (k := k) digits_zero hfraction rfl
    (by simp only [List.length_append, List.length_replicate]; omega)
  rw [← List.append_assoc, ← List.replicate_one, ← List.replicate_add,
    digitsValue_zeros_append] at h
  simpa using h

/-- The point stands between the digits. -/
theorem denotes_between {ds : List Char} {k w : Nat} (hd : Digits ds) (hw : w ≠ 0)
    (hk : k + (ds.length - w) = places) :
    Denotes (ds.take w ++ '.' :: ds.drop w) (digitsValue ds * 10 ^ k) := by
  have hwhole : Digits (ds.take w) := by
    refine ⟨?_, fun c hc => hd.2 c (List.mem_of_mem_take hc)⟩
    rw [ne_eq, List.take_eq_nil_iff]
    exact not_or.2 ⟨hw, hd.1⟩
  have h := Denotes.point (b := ds.drop w) (e := []) (n := 0) (k := k) hwhole
    (fun c hc => hd.2 c (List.mem_of_mem_drop hc)) rfl (by rw [List.length_drop]; omega)
  rwa [List.take_append_drop, List.append_nil] at h

/-- The point, if it is written, stands behind the digits and some zeros. -/
theorem denotes_behind {ds : List Char} (hd : Digits ds) (z : Nat) (pointZero : Bool) :
    Denotes (ds ++ List.replicate z '0' ++ if pointZero then ['.', '0'] else [])
      (digitsValue ds * 10 ^ (z + places)) := by
  have hwhole : Digits (ds ++ List.replicate z '0') :=
    ⟨List.append_ne_nil_of_left_ne_nil hd.1 _,
      fun c hc => (List.mem_append.1 hc).elim (hd.2 c) isDigit_of_mem_zeros⟩
  rw [Nat.pow_add, ← Nat.mul_assoc, ← digitsValue_append_zeros]
  split
  · have hplaces : places = 1 + 150 := rfl
    have h := Denotes.point (e := []) (n := 0) (k := 150) hwhole digits_zero.2 rfl rfl
    rwa [← List.replicate_one, digitsValue_append_zeros, Nat.mul_assoc, ← Nat.pow_add, ← hplaces,
      List.append_nil] at h
  · exact .whole hwhole (n := 0) rfl (by omega)

theorem denotes_positionalText (y : Style) {s : Scientific} {v : Nat} (h : s.Means v) :
    Denotes (y.positionalText s) v := by
  obtain ⟨hd, k, hk, rfl⟩ := h
  unfold positionalText
  split
  · exact denotes_before hd (by omega)
  · dsimp only
    generalize hw : s.exponent.toNat + 1 = w
    by_cases hlen : w < s.digits.length
    · have hfraction : s.digits.drop w ≠ [] := by
        rw [ne_eq, List.drop_eq_nil_iff]
        omega
      rw [if_pos hfraction, Nat.sub_eq_zero_of_le hlen.le, List.replicate_zero, List.append_nil]
      exact denotes_between hd (by omega) (by omega)
    · have hfraction : s.digits.drop w = [] := List.drop_eq_nil_iff.2 (by omega)
      have hpow : k = w - s.digits.length + places := by omega
      rw [if_neg (not_not.2 hfraction), List.take_of_length_le (by omega), hpow]
      exact denotes_behind hd _ _

theorem exponent?_eq (n : Int) :
    exponent? ('e' :: (if n < 0 then '-' else '+') :: digits n.natAbs) = some n := by
  rw [exponent?, if_pos (.inl rfl), integer?_eq_some]
  split
  · exact numeral_of_neg ‹_›
  · exact (numeral_of_nonneg (by omega)).2

theorem denotes_exponentText {s : Scientific} {v : Nat} (h : s.Means v) :
    Denotes (exponentText s) v := by
  obtain ⟨hd, k, hk, rfl⟩ := h
  unfold exponentText
  generalize s.digits = ds at hd hk ⊢
  obtain ⟨d, ds, rfl⟩ := List.exists_cons_of_ne_nil hd.1
  obtain ⟨hfirst, hrest⟩ := List.forall_mem_cons.1 hd.2
  have hwhole : Digits [d] := ⟨nofun, List.forall_mem_singleton.2 hfirst⟩
  rw [List.take_succ_cons, List.take_zero, List.drop_succ_cons, List.drop_zero]
  rw [List.length_cons] at hk
  split
  · rename_i hnil
    subst hnil
    rw [List.append_nil]
    exact .whole hwhole (exponent?_eq s.exponent) (by simp at hk; omega)
  · exact .point (b := ds) hwhole hrest (exponent?_eq s.exponent) (by omega)

/-! ### Singles -/

/-- **The text of a magnitude denotes a number in its rounding interval**, in every style. -/
theorem exists_denotes (y : Style) (r : Nat) :
    ∃ v, Denotes (y.magnitudeText r) v ∧ (roundingInterval r).contains v = true := by
  unfold magnitudeText
  split
  · rename_i hr
    subst hr
    refine ⟨0, ?_, contains_zero⟩
    have h := denotes_behind digits_zero 0 y.pointZero
    rw [show digitsValue ['0'] = 0 from rfl, Nat.zero_mul] at h
    split at h <;> simpa [*] using h
  · rename_i hr
    obtain ⟨v, hv, hin⟩ := Scientific.exists_means_ofRank y.tie hr
    refine ⟨v, ?_, hin⟩
    dsimp only
    split
    · exact y.denotes_positionalText hv
    · exact denotes_exponentText hv

theorem magnitudeText_injective (y : Style) {r q : Nat}
    (h : y.magnitudeText r = y.magnitudeText q) : r = q := by
  obtain ⟨v, hv, hr⟩ := y.exists_denotes r
  obtain ⟨w, hw, hq⟩ := y.exists_denotes q
  rw [← h] at hw
  obtain rfl := hv.unique hw
  exact eq_of_contains hr hq

/-- **No two finite singles have the same text.** -/
theorem finiteText_injective (y : Style) {s t : Bool} {r q : Nat}
    (h : y.finiteText s r = y.finiteText t q) : s = t ∧ r = q := by
  have hsign (n m : Nat) : y.magnitudeText n ≠ '-' :: y.magnitudeText m := by
    intro hn
    obtain ⟨v, hv, -⟩ := y.exists_denotes n
    rw [hn] at hv
    exact (Single.head_of_magnitude hv.magnitude).1 rfl
  have hchars := String.ofList_injective h
  cases s <;> cases t <;>
    simp only [Bool.false_eq_true, if_true, if_false, List.cons.injEq, true_and] at hchars
  · exact ⟨rfl, y.magnitudeText_injective hchars⟩
  · exact absurd hchars (hsign r q)
  · exact absurd hchars.symm (hsign q r)
  · exact ⟨rfl, y.magnitudeText_injective hchars⟩

/-- The text of a single is made of the characters of numbers, and there is at least one. -/
theorem finiteText_spec (y : Style) (s : Bool) (r : Nat) :
    (y.finiteText s r).toList ≠ [] ∧ ∀ c ∈ (y.finiteText s r).toList, NumberChar c := by
  obtain ⟨v, hv, -⟩ := y.exists_denotes r
  rw [finiteText, String.toList_ofList]
  split
  · exact ⟨List.cons_ne_nil _ _, List.forall_mem_cons.2 ⟨.inr (by decide), hv.numberChar⟩⟩
  · exact ⟨hv.ne_nil, hv.numberChar⟩

end Style

end ShaderFilter.Number
