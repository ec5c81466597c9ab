import ShaderFilter.Number.Word
import ShaderFilter.Proofs.Literal
import Mathlib.Algebra.Group.Nat.Defs
import Mathlib.Data.List.Induction

/-!
# Written integers

What is written in decimal notation reads back: `numeral_integerText` says that the text of an
integer is a notation of it, so that no two integers have the same text.
-/

namespace ShaderFilter.Number

/-! ### Values of digits -/

theorem digitsValue_append (as bs : List Char) :
    digitsValue (as ++ bs) = digitsValue as * 10 ^ bs.length + digitsValue bs := by
  induction bs using List.reverseRecOn with
  | nil => simp [digitsValue]
  | append_singleton bs b ih =>
    simp only [digitsValue, ← List.append_assoc, List.foldl_append, List.foldl_cons, List.foldl_nil,
      List.length_append, List.length_cons, List.length_nil, Nat.zero_add, Nat.pow_succ,
      ← Nat.mul_assoc] at ih ⊢
    omega

theorem digitsValue_zeros (n : Nat) : digitsValue (List.replicate n '0') = 0 := by
  induction n with
  | zero => rfl
  | succ n ih =>
    rw [List.replicate_succ, ← List.singleton_append, digitsValue_append, ih]
    simp [digitsValue, digitValue]

/-- Zeros in front of digits do not count. -/
theorem digitsValue_zeros_append (n : Nat) (ds : List Char) :
    digitsValue (List.replicate n '0' ++ ds) = digitsValue ds := by
  rw [digitsValue_append, digitsValue_zeros, Nat.zero_mul, Nat.zero_add]

/-- Zeros behind digits multiply by ten. -/
theorem digitsValue_append_zeros (n : Nat) (ds : List Char) :
    digitsValue (ds ++ List.replicate n '0') = digitsValue ds * 10 ^ n := by
  rw [digitsValue_append, digitsValue_zeros, List.length_replicate, Nat.add_zero]

theorem isDigit_of_mem_zeros {n : Nat} {c : Char} (h : c ∈ List.replicate n '0') : c.isDigit := by
  rw [List.eq_of_mem_replicate h]
  decide

theorem digits_zero : Digits ['0'] := ⟨nofun, List.forall_mem_singleton.2 rfl⟩

/-- The digits of a number have its value. -/
theorem digitsValue_digits (n : Nat) : digitsValue (digits n) = n := Nat.ofDigitChars_ten_toDigits

theorem digits_spec (n : Nat) : Digits (digits n) :=
  ⟨Nat.toDigits_ne_nil, fun _ => Nat.isDigit_of_mem_toDigits (by decide) (by decide)⟩

/-! ### Integers -/

theorem numeral_of_neg {n : Int} (hn : n < 0) : Numeral ('-' :: digits n.natAbs) n := by
  have h := Numeral.minus (digits_spec n.natAbs)
  rwa [digitsValue_digits, Int.ofNat_natAbs_of_nonpos (by omega), Int.neg_neg] at h

theorem numeral_of_nonneg {n : Int} (hn : 0 ≤ n) :
    Numeral (digits n.natAbs) n ∧ Numeral ('+' :: digits n.natAbs) n := by
  have hplain := Numeral.plain (digits_spec n.natAbs)
  have hplus := Numeral.plus (digits_spec n.natAbs)
  rw [digitsValue_digits, Int.natAbs_of_nonneg hn] at hplain hplus
  exact ⟨hplain, hplus⟩

/-- The text of an integer is a notation of it. -/
theorem numeral_integerText (n : Int) : Numeral (integerText n).toList n := by
  rw [integerText, String.toList_ofList]
  split
  · exact numeral_of_neg ‹_›
  · exact (numeral_of_nonneg (by omega)).1

/-- A notation belongs to one integer. -/
theorem Numeral.unique {cs : List Char} {m n : Int} (hm : Numeral cs m) (hn : Numeral cs n) :
    m = n :=
  Option.some.inj ((integer?_eq_some.2 hm).symm.trans (integer?_eq_some.2 hn))

/-- A character that numbers are written with. -/
def NumberChar (c : Char) : Prop := c.isDigit ∨ c ∈ ['+', '-', '.', 'e', 'E']

theorem Numeral.numberChar {cs : List Char} {n : Int} (h : Numeral cs n) :
    ∀ c ∈ cs, NumberChar c := by
  cases h with
  | plain hd => exact fun c hc => .inl (hd.2 c hc)
  | plus hd => exact List.forall_mem_cons.2 ⟨.inr (by decide), fun c hc => .inl (hd.2 c hc)⟩
  | minus hd => exact List.forall_mem_cons.2 ⟨.inr (by decide), fun c hc => .inl (hd.2 c hc)⟩

theorem Numeral.ne_nil {cs : List Char} {n : Int} (h : Numeral cs n) : cs ≠ [] := by
  cases h with
  | plain hd => exact hd.1
  | plus => exact List.cons_ne_nil _ _
  | minus => exact List.cons_ne_nil _ _

theorem Word.text_injective {v w : Word} (h : v.text = w.text) : v = w := by
  refine Word.ext (Numeral.unique (numeral_integerText v.val) ?_)
  rw [show integerText v.val = integerText w.val from h]
  exact numeral_integerText w.val

end ShaderFilter.Number
