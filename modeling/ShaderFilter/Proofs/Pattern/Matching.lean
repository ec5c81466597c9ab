import ShaderFilter.Pattern
import Mathlib.Logic.Relation

/-!
# What patterns match

A pattern leads from some places of a text to others: it matches what lies between them (`Matches`). Only
what is demanded of a place looks at the rest of the text, so the place says what is before it and what is
after it.

Whatever is matched lies in the text as it is written, one character after the other (`Matches.over`).
-/

namespace ShaderFilter.Pattern

open Relation

/-- A place in a text. -/
structure Place where
  /-- The text before it. -/
  before : List Char
  /-- The text after it. -/
  after : List Char

namespace Place

/-- A text lies between two places. -/
def Over (cs : List Char) (x y : Place) : Prop :=
  x.after = cs ++ y.after ∧ y.before = x.before ++ cs

theorem over_nil {x y : Place} : Over [] x y ↔ x = y := by
  obtain ⟨before, after⟩ := x
  obtain ⟨before', after'⟩ := y
  simp [Over, and_comm, eq_comm]

theorem over_append {cs ds : List Char} {x z : Place} :
    Over (cs ++ ds) x z ↔ ∃ y, Over cs x y ∧ Over ds y z := by
  constructor
  · rintro ⟨hafter, hbefore⟩
    exact ⟨⟨x.before ++ cs, ds ++ z.after⟩, ⟨by simp [hafter], rfl⟩, rfl, by simp [hbefore]⟩
  · rintro ⟨y, ⟨hafter, hbefore⟩, hafter', hbefore'⟩
    exact ⟨by simp [hafter, hafter'], by simp [hbefore, hbefore']⟩

theorem over_cons {c : Char} {cs : List Char} {x z : Place} :
    Over (c :: cs) x z ↔ ∃ y, Over [c] x y ∧ Over cs y z := by
  rw [← List.singleton_append, over_append]

/-- The only place behind the next character. -/
theorem over_singleton {c : Char} {x y : Place} :
    Over [c] x y ↔ ∃ cs, x.after = c :: cs ∧ y = ⟨x.before ++ [c], cs⟩ := by
  obtain ⟨before, after⟩ := y
  constructor
  · rintro ⟨hafter, hbefore⟩
    exact ⟨after, hafter, congrArg (Place.mk · after) hbefore⟩
  · rintro ⟨cs, hafter, heq⟩
    cases heq
    exact ⟨hafter, rfl⟩

/-- The place is one of a text. -/
def In (x : Place) (text : List Char) : Prop := x.before ++ x.after = text

/-- Places with a text between them are places of one text. -/
theorem Over.in_iff {cs text : List Char} {x y : Place} (h : Over cs x y) : x.In text ↔ y.In text := by
  rw [In, In, h.1, h.2, List.append_assoc]

end Place

open Place

/-- What leads from place to place is gone through a number of times. -/
def Times (r : Place → Place → Prop) : Nat → Place → Place → Prop
  | 0 => Eq
  | n + 1 => Comp r (Times r n)

/-- A pattern matches what lies between two places. A greatest number of times below the least one counts
as the least one. -/
def Matches : Pattern → Place → Place → Prop
  | .skip => Eq
  | .text cs => Over cs
  | .one s => fun x y => ∃ c, s.contains c ∧ Over [c] x y
  | .check a => fun x y => a.holds x.before.getLast? x.after.head? ∧ x = y
  | .seq p q => Comp (Matches p) (Matches q)
  | .either p q => fun x y => Matches p x y ∨ Matches q x y
  | .repeated p least most => fun x y =>
    ∃ n, least ≤ n ∧ (∀ m, most = some m → n ≤ max least m) ∧ Times (Matches p) n x y
  | .captured _ p => Matches p

/-- A pattern occurs in a text: it matches something from one of its places on. -/
def OccursIn (p : Pattern) (text : List Char) : Prop := ∃ x y, x.In text ∧ p.Matches x y

/-- What leads from place to place is gone through up to a number of times. -/
def UpTo (r : Place → Place → Prop) (n : Nat) (x y : Place) : Prop := ∃ k ≤ n, Times r k x y

theorem upTo_zero (r : Place → Place → Prop) : UpTo r 0 = Eq := by
  funext x y
  simp [UpTo, Times]

theorem upTo_succ (r : Place → Place → Prop) (n : Nat) :
    UpTo r (n + 1) = fun x y => Comp r (UpTo r n) x y ∨ x = y := by
  funext x y
  rw [eq_iff_iff]
  constructor
  · rintro ⟨_ | k, hk, h⟩
    · exact .inr h
    · obtain ⟨z, hfirst, hothers⟩ := h
      exact .inl ⟨z, hfirst, k, Nat.le_of_succ_le_succ hk, hothers⟩
  · rintro (⟨z, hfirst, k, hk, hothers⟩ | rfl)
    · exact ⟨k + 1, Nat.succ_le_succ hk, z, hfirst, hothers⟩
    · exact ⟨0, Nat.zero_le _, rfl⟩

theorem times_one (r : Place → Place → Prop) : Times r 1 = r := comp_eq

theorem times_add (r : Place → Place → Prop) (m n : Nat) :
    Times r (m + n) = Comp (Times r m) (Times r n) := by
  induction m with
  | zero => rw [Nat.zero_add, Times, eq_comp]
  | succ m ih => rw [Nat.succ_add, Times, ih, Times, comp_assoc]

/-- Without a greatest number of times, something is matched the least number of times and then any number
of times. -/
theorem matches_repeated_none (p : Pattern) (least : Nat) :
    (Pattern.repeated p least none).Matches =
      Comp (Times p.Matches least) (fun x y => ∃ n, Times p.Matches n x y) := by
  funext x y
  rw [eq_iff_iff]
  constructor
  · rintro ⟨n, hleast, -, h⟩
    obtain ⟨k, rfl⟩ := Nat.exists_eq_add_of_le hleast
    rw [times_add] at h
    obtain ⟨z, hfirst, hothers⟩ := h
    exact ⟨z, hfirst, k, hothers⟩
  · rintro ⟨z, hfirst, k, hothers⟩
    refine ⟨least + k, Nat.le_add_right _ _, by simp, ?_⟩
    rw [times_add]
    exact ⟨z, hfirst, hothers⟩

/-- With a greatest number of times, something is matched the least number of times and then up to as many
times as are left. -/
theorem matches_repeated_some (p : Pattern) (least most : Nat) :
    (Pattern.repeated p least (some most)).Matches =
      Comp (Times p.Matches least) (UpTo p.Matches (most - least)) := by
  funext x y
  rw [eq_iff_iff]
  constructor
  · rintro ⟨n, hleast, hmost, h⟩
    obtain ⟨k, rfl⟩ := Nat.exists_eq_add_of_le hleast
    have hk := hmost most rfl
    rw [times_add] at h
    obtain ⟨z, hfirst, hothers⟩ := h
    exact ⟨z, hfirst, k, by omega, hothers⟩
  · rintro ⟨z, hfirst, k, hk, hothers⟩
    refine ⟨least + k, Nat.le_add_right _ _, ?_, ?_⟩
    · rintro _ ⟨⟩
      omega
    · rw [times_add]
      exact ⟨z, hfirst, hothers⟩

/-- What is matched is a text. -/
theorem Times.over {r : Place → Place → Prop} (hr : ∀ x y, r x y → ∃ cs, Over cs x y) {n : Nat}
    {x y : Place} (h : Times r n x y) : ∃ cs, Over cs x y := by
  induction n generalizing x with
  | zero => exact ⟨[], over_nil.2 h⟩
  | succ n ih =>
    obtain ⟨z, hfirst, hothers⟩ := h
    obtain ⟨cs, hcs⟩ := hr x z hfirst
    obtain ⟨ds, hds⟩ := ih hothers
    exact ⟨cs ++ ds, over_append.2 ⟨z, hcs, hds⟩⟩

/-- **What a pattern matches stands in the text.** -/
theorem Matches.over {p : Pattern} {x y : Place} (h : p.Matches x y) : ∃ cs, Over cs x y := by
  induction p generalizing x y with
  | skip => exact ⟨[], over_nil.2 h⟩
  | text cs => exact ⟨cs, h⟩
  | one s =>
    obtain ⟨c, -, h⟩ := h
    exact ⟨[c], h⟩
  | check a => exact ⟨[], over_nil.2 h.2⟩
  | seq p q ihp ihq =>
    obtain ⟨z, hp, hq⟩ := h
    obtain ⟨cs, hcs⟩ := ihp hp
    obtain ⟨ds, hds⟩ := ihq hq
    exact ⟨cs ++ ds, over_append.2 ⟨z, hcs, hds⟩⟩
  | either p q ihp ihq => exact h.elim ihp ihq
  | repeated p least most ih =>
    obtain ⟨n, -, -, h⟩ := h
    exact h.over fun _ _ => ih
  | captured index p ih => exact ih h

end ShaderFilter.Pattern
