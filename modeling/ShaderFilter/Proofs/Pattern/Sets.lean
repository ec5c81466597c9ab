import ShaderFilter.Pattern.CaseSet
import Mathlib.Data.List.Pairwise
import Mathlib.Order.MinMax

/-!
# The characters of sets

The operations on sets of characters are those on the characters in them (`contains_union`,
`contains_complement`, `contains_inter`, `contains_difference`). The gaps between ranges are the complement
because the ranges are ascending, which all operations keep (`Ascending`); the code points that are no
characters do not count.

A set that is put together may be noted to have its letters in both cases. The note is right where it is
made and stays right (`CaseSet.Noted`), so a set can be completed by looking only at the sets without it
(`CaseSet.contains_complete?`).
-/

namespace ShaderFilter.Pattern

namespace CharSet

/-! ### Ascending ranges -/

/-- Ranges are ascending, with gaps between them, and start and end with characters. -/
structure Ascending (rs : List (Nat × Nat)) : Prop where
  /-- Each range ends before the next one starts. -/
  pairwise : rs.Pairwise fun r r' => r.2 + 1 < r'.1
  /-- No range is empty. -/
  le : ∀ r ∈ rs, r.1 ≤ r.2
  /-- The ends of a range are characters. -/
  valid : ∀ r ∈ rs, r.1.isValidChar ∧ r.2.isValidChar

theorem Ascending.nil : Ascending [] := ⟨.nil, nofun, nofun⟩

theorem ascending_cons {r : Nat × Nat} {rs : List (Nat × Nat)} :
    Ascending (r :: rs) ↔ (r.1 ≤ r.2 ∧ r.1.isValidChar ∧ r.2.isValidChar) ∧
      (∀ r' ∈ rs, r.2 + 1 < r'.1) ∧ Ascending rs := by
  constructor
  · rintro ⟨hpairwise, hle, hvalid⟩
    obtain ⟨hr, hrs⟩ := List.pairwise_cons.1 hpairwise
    obtain ⟨hler, hlers⟩ := List.forall_mem_cons.1 hle
    obtain ⟨hvalidr, hvalidrs⟩ := List.forall_mem_cons.1 hvalid
    exact ⟨⟨hler, hvalidr⟩, hr, hrs, hlers, hvalidrs⟩
  · rintro ⟨⟨hler, hvalidr⟩, hr, hrs, hlers, hvalidrs⟩
    exact ⟨List.pairwise_cons.2 ⟨hr, hrs⟩, List.forall_mem_cons.2 ⟨hler, hlers⟩,
      List.forall_mem_cons.2 ⟨hvalidr, hvalidrs⟩⟩

/-- What lies below a range and below others lies below them after it is entered. -/
theorem lt_of_mem_enter {n first last : Nat} {rs : List (Nat × Nat)} (hfirst : n < first)
    (hrs : ∀ r ∈ rs, n < r.1) : ∀ r ∈ enter first last rs, n < r.1 := by
  fun_induction enter first last rs with
  | case1 => simpa using hfirst
  | case2 first last a b rs _ =>
    exact List.forall_mem_cons.2 ⟨hfirst, hrs⟩
  | case3 first last a b rs _ _ ih =>
    obtain ⟨ha, hrs⟩ := List.forall_mem_cons.1 hrs
    exact List.forall_mem_cons.2 ⟨ha, ih hfirst hrs⟩
  | case4 first last a b rs _ _ ih =>
    obtain ⟨ha, hrs⟩ := List.forall_mem_cons.1 hrs
    exact ih (lt_min hfirst ha) hrs

/-- Ascending ranges stay so when a range is entered. -/
theorem Ascending.enter {first last : Nat} {rs : List (Nat × Nat)} (h : Ascending rs)
    (hle : first ≤ last) (hfirst : first.isValidChar) (hlast : last.isValidChar) :
    Ascending (enter first last rs) := by
  fun_induction CharSet.enter first last rs with
  | case1 first last => exact ascending_cons.2 ⟨⟨hle, hfirst, hlast⟩, nofun, .nil⟩
  | case2 first last a b rs hlt =>
    obtain ⟨⟨hab, -, -⟩, hrs, -⟩ := ascending_cons.1 h
    refine ascending_cons.2 ⟨⟨hle, hfirst, hlast⟩, List.forall_mem_cons.2 ⟨hlt, ?_⟩, h⟩
    intro r hr
    have := hrs r hr
    dsimp only at hab this ⊢
    omega
  | case3 first last a b rs _ hlt ih =>
    obtain ⟨hab, hrs, h⟩ := ascending_cons.1 h
    exact ascending_cons.2 ⟨hab, lt_of_mem_enter hlt hrs, ih h hle hfirst hlast⟩
  | case4 first last a b rs _ _ ih =>
    obtain ⟨⟨hab, ha, hb⟩, -, h⟩ := ascending_cons.1 h
    refine ih h (by omega) ?_ ?_
    · rcases min_choice first a with hmin | hmin <;> rw [hmin] <;> assumption
    · rcases max_choice last b with hmax | hmax <;> rw [hmax] <;> assumption

/-- Entering a range adds its characters and no other ones. -/
theorem inRanges_enter (first last : Nat) (rs : List (Nat × Nat)) (c : Char) :
    Text.inRanges (CharSet.enter first last rs) c =
      ((first ≤ c.toNat && c.toNat ≤ last) || Text.inRanges rs c) := by
  unfold Text.inRanges
  fun_induction CharSet.enter first last rs with
  | case1 first last => simp
  | case2 first last a b rs _ => simp
  | case3 first last a b rs _ _ ih =>
    rw [List.any_cons, ih, List.any_cons, Bool.or_left_comm]
  | case4 first last a b rs _ _ ih =>
    rw [ih, List.any_cons, ← Bool.or_assoc]
    congr 1
    rw [Bool.eq_iff_iff]
    simp only [Bool.and_eq_true, Bool.or_eq_true, decide_eq_true_eq]
    omega

/-! ### Operations -/

theorem contains_range (first last c : Char) :
    (range first last).contains c = (first ≤ c && c ≤ last) := by
  rw [contains, range, Text.inRanges, List.any_cons, List.any_nil, Bool.or_false]
  rfl

theorem contains_union (s t : CharSet) (c : Char) :
    (s.union t).contains c = (s.contains c || t.contains c) := by
  obtain ⟨rs⟩ := s
  obtain ⟨rs'⟩ := t
  simp only [contains, union]
  induction rs' generalizing rs with
  | nil => simp [Text.inRanges]
  | cons r rs' ih =>
    rw [List.foldl_cons, ih, inRanges_enter, Bool.or_assoc, Bool.or_left_comm]
    rfl

theorem inRanges_cons {a b : Nat} {rs : List (Nat × Nat)} {c : Char} :
    Text.inRanges ((a, b) :: rs) c ↔ a ≤ c.toNat ∧ c.toNat ≤ b ∨ Text.inRanges rs c := by
  simp [Text.inRanges]

/-- A character in some ranges lies behind what all of them lie behind. -/
theorem lt_of_inRanges {n : Nat} {rs : List (Nat × Nat)} {c : Char} (hrs : ∀ r ∈ rs, n < r.1)
    (h : Text.inRanges rs c) : n < c.toNat := by
  obtain ⟨r, hr, hc⟩ := List.any_eq_true.1 h
  simp only [Bool.and_eq_true, decide_eq_true_eq] at hc
  exact Nat.lt_of_lt_of_le (hrs r hr) hc.1

theorem lt_of_isValidChar {n : Nat} (h : n.isValidChar) : n < 0xd800 ∨ 0xe000 ≤ n ∧ n ≤ 0x10ffff := by
  unfold Nat.isValidChar at h
  omega

theorem exists_toNat_eq {n : Nat} (h : n.isValidChar) : ∃ c : Char, c.toNat = n :=
  ⟨Char.ofNatAux n h, rfl⟩

theorem isValidChar_toNat (c : Char) : c.toNat.isValidChar := c.valid

/-- A character lies before the start of a range if it does not lie behind the end of the gap. -/
theorem le_before_iff {a : Nat} {c : Char} (h : 0 < a) : c.toNat ≤ before a ↔ c.toNat < a := by
  have hc := lt_of_isValidChar (isValidChar_toNat c)
  unfold before
  split <;> omega

/-- A character lies behind the end of a range if it does not lie before the start of the gap. -/
theorem after_le_iff {b : Nat} {c : Char} : after b ≤ c.toNat ↔ b < c.toNat := by
  have hc := lt_of_isValidChar (isValidChar_toNat c)
  unfold after
  split <;> omega

/-- The ranges behind another one start where the gap behind it starts, or later. -/
theorem after_le {r : Nat × Nat} {rs : List (Nat × Nat)} (hrs : ∀ r' ∈ rs, r.2 + 1 < r'.1)
    (h : Ascending rs) : ∀ r' ∈ rs, after r.2 ≤ r'.1 := by
  intro r' hr'
  have hlt := hrs r' hr'
  have hvalid := lt_of_isValidChar (h.valid r' hr').1
  unfold after
  split <;> omega

/-- A character is in one of the gaps between ascending ranges if it is in none of the ranges. -/
theorem inRanges_gaps {start : Nat} {rs : List (Nat × Nat)} (h : Ascending rs)
    (hstart : ∀ r ∈ rs, start ≤ r.1) (c : Char) :
    Text.inRanges (gaps start rs) c ↔ start ≤ c.toNat ∧ ¬ Text.inRanges rs c := by
  induction rs generalizing start with
  | nil =>
    have hc := lt_of_isValidChar (isValidChar_toNat c)
    unfold gaps
    split
    · simp only [Text.inRanges, List.any_cons, List.any_nil, Bool.or_false, Bool.and_eq_true,
        decide_eq_true_eq, Bool.false_eq_true, not_false_eq_true, and_true]
      omega
    · simp only [Text.inRanges, List.any_nil, Bool.false_eq_true, false_iff, not_and, not_false_eq_true,
        not_true_eq_false, imp_false]
      omega
  | cons r rs ih =>
    obtain ⟨a, b⟩ := r
    obtain ⟨⟨hab, ha, hb⟩, hrs, h⟩ := ascending_cons.1 h
    have hbehind : Text.inRanges rs c → b + 1 < c.toNat := lt_of_inRanges hrs
    have hrest : Text.inRanges (gaps (after b) rs) c ↔ b < c.toNat ∧ ¬ Text.inRanges rs c := by
      rw [ih h (after_le hrs h), after_le_iff]
    have hgap : Text.inRanges (if start < a then [(start, before a)] else []) c ↔
        start ≤ c.toNat ∧ c.toNat < a := by
      split
      · rw [inRanges_cons, le_before_iff (by omega)]
        simp [Text.inRanges]
      · simp only [Text.inRanges, List.any_nil, Bool.false_eq_true, false_iff]
        omega
    have hle := hstart (a, b) List.mem_cons_self
    dsimp only at hab hle
    rw [gaps, Text.inRanges, List.any_append, Bool.or_eq_true, ← Text.inRanges, ← Text.inRanges, hgap,
      hrest, inRanges_cons]
    constructor
    · rintro (⟨hstart, hlt⟩ | ⟨hlt, hnone⟩)
      · exact ⟨hstart, by rintro (h | h) <;> [skip; have := hbehind h] <;> omega⟩
      · exact ⟨by omega, by rintro (h | h) <;> [omega; exact hnone h]⟩
    · rintro ⟨hstart, hnone⟩
      by_cases hlt : c.toNat < a
      · exact .inl ⟨hstart, hlt⟩
      · exact .inr ⟨by_contra fun hle => hnone (.inl (by omega)), fun h => hnone (.inr h)⟩

/-- The gaps between ascending ranges are ascending. -/
theorem ascending_gaps {start : Nat} {rs : List (Nat × Nat)} (h : Ascending rs)
    (hstart : ∀ r ∈ rs, start ≤ r.1) (hvalid : start ≤ 0x10ffff → start.isValidChar) :
    Ascending (gaps start rs) ∧ ∀ r ∈ gaps start rs, start ≤ r.1 := by
  induction rs generalizing start with
  | nil =>
    unfold gaps
    split
    · rename_i hle
      refine ⟨ascending_cons.2 ⟨⟨hle, hvalid hle, (by decide : Nat.isValidChar 0x10ffff)⟩, nofun, .nil⟩, ?_⟩
      simp
    · exact ⟨.nil, nofun⟩
  | cons r rs ih =>
    obtain ⟨a, b⟩ := r
    obtain ⟨⟨hab, ha, hb⟩, hrs, h⟩ := ascending_cons.1 h
    have hle := hstart (a, b) List.mem_cons_self
    have hb' := lt_of_isValidChar hb
    have ha' := lt_of_isValidChar ha
    dsimp only at hab hle hb' ha'
    have hafter : after b ≤ 0x10ffff → (after b).isValidChar := by
      unfold after Nat.isValidChar
      split <;> omega
    have hbehind : b < after b := by
      unfold after
      split <;> omega
    obtain ⟨hgaps, hge⟩ := ih h (after_le hrs h) hafter
    rw [gaps]
    split
    · rename_i hlt
      have hs := lt_of_isValidChar (hvalid (by omega))
      have hbefore : start ≤ before a ∧ (before a).isValidChar ∧ before a < a := by
        unfold before Nat.isValidChar
        split <;> omega
      constructor
      · refine ascending_cons.2 ⟨⟨hbefore.1, hvalid (by omega), hbefore.2.1⟩, ?_, hgaps⟩
        intro r hr
        have hr : after b ≤ r.1 := hge r hr
        dsimp only
        omega
      · refine List.forall_mem_cons.2 ⟨Nat.le_refl _, fun r hr => ?_⟩
        have hr : after b ≤ r.1 := hge r hr
        omega
    · refine ⟨hgaps, fun r hr => ?_⟩
      have hr : after b ≤ r.1 := hge r hr
      omega

section

variable {s t : CharSet}

theorem ascending_empty : Ascending CharSet.empty.ranges := .nil

theorem ascending_range {first last : Char} (h : first ≤ last) :
    Ascending (range first last).ranges :=
  ascending_cons.2 ⟨⟨h, isValidChar_toNat first, isValidChar_toNat last⟩, nofun, .nil⟩

theorem ascending_union (hs : Ascending s.ranges) (ht : Ascending t.ranges) :
    Ascending (s.union t).ranges := by
  obtain ⟨rs⟩ := s
  obtain ⟨rs'⟩ := t
  simp only [union] at hs ht ⊢
  induction rs' generalizing rs with
  | nil => exact hs
  | cons r rs' ih =>
    obtain ⟨⟨hle, hfirst, hlast⟩, -, ht⟩ := ascending_cons.1 ht
    exact ih _ (hs.enter hle hfirst hlast) ht

theorem ascending_complement (hs : Ascending s.ranges) : Ascending s.complement.ranges :=
  (ascending_gaps hs (fun _ _ => Nat.zero_le _) fun _ => by decide).1

theorem ascending_inter (hs : Ascending s.ranges) (ht : Ascending t.ranges) :
    Ascending (s.inter t).ranges :=
  ascending_complement (ascending_union (ascending_complement hs) (ascending_complement ht))

theorem ascending_difference (hs : Ascending s.ranges) (ht : Ascending t.ranges) :
    Ascending (s.difference t).ranges :=
  ascending_inter hs (ascending_complement ht)

theorem contains_complement (hs : Ascending s.ranges) (c : Char) :
    s.complement.contains c = !s.contains c := by
  rw [Bool.eq_iff_iff, Bool.not_eq_true', ← Bool.not_eq_true]
  simpa [contains, complement] using inRanges_gaps hs (fun _ _ => Nat.zero_le _) c

theorem contains_inter (hs : Ascending s.ranges) (ht : Ascending t.ranges) (c : Char) :
    (s.inter t).contains c = (s.contains c && t.contains c) := by
  rw [inter, contains_complement (ascending_union (ascending_complement hs) (ascending_complement ht)),
    contains_union, contains_complement hs, contains_complement ht, Bool.not_or, Bool.not_not,
    Bool.not_not]

theorem contains_difference (hs : Ascending s.ranges) (ht : Ascending t.ranges) (c : Char) :
    (s.difference t).contains c = (s.contains c && !t.contains c) := by
  rw [difference, contains_inter hs (ascending_complement ht), contains_complement ht]

end

/-! ### Given ranges -/

theorem ascending_ofRanges {rs : List (Char × Char)} (h : ∀ r ∈ rs, r.1 ≤ r.2) :
    Ascending (ofRanges rs).ranges := by
  rw [ofRanges]
  have hempty := ascending_empty
  generalize CharSet.empty = u at hempty
  induction rs generalizing u with
  | nil => exact hempty
  | cons r rs ih =>
    obtain ⟨hr, hrs⟩ := List.forall_mem_cons.1 h
    exact ih hrs _ (ascending_union hempty (ascending_range hr))

theorem contains_ofRanges (rs : List (Char × Char)) (c : Char) :
    (ofRanges rs).contains c ↔ ∃ r ∈ rs, r.1 ≤ c ∧ c ≤ r.2 := by
  have hfold (u : CharSet) : (rs.foldl (fun s r => s.union (range r.1 r.2)) u).contains c ↔
      u.contains c ∨ ∃ r ∈ rs, r.1 ≤ c ∧ c ≤ r.2 := by
    induction rs generalizing u with
    | nil => simp
    | cons r rs ih =>
      rw [List.foldl_cons, ih, CharSet.contains_union, contains_range]
      simp [or_assoc]
  have hempty : CharSet.empty.contains c = false := rfl
  rw [ofRanges, hfold, hempty]
  simp

/-- A range from a character to itself. -/
theorem le_and_le_iff {c d : Char} : d ≤ c ∧ c ≤ d ↔ c = d :=
  ⟨fun ⟨hge, hle⟩ => Char.le_antisymm hle hge, fun heq => heq ▸ ⟨Char.le_refl c, Char.le_refl c⟩⟩

theorem contains_single (c d : Char) : (single d).contains c ↔ c = d := by
  rw [single, contains_range, Bool.and_eq_true, decide_eq_true_eq, decide_eq_true_eq, le_and_le_iff]

/-- The named sets have ascending ranges. -/
theorem ascending_named : ∀ entry ∈ CharSet.named, Ascending entry.2.ranges := by
  have hpairwise : ∀ entry ∈ CharSet.named,
      entry.2.ranges.Pairwise fun r r' => r.2 + 1 < r'.1 := by decide
  have hle : ∀ entry ∈ CharSet.named, ∀ r ∈ entry.2.ranges, r.1 ≤ r.2 := by decide
  have hvalid : ∀ entry ∈ CharSet.named, ∀ r ∈ entry.2.ranges,
      r.1.isValidChar ∧ r.2.isValidChar := by decide
  exact fun entry h => ⟨hpairwise entry h, hle entry h, hvalid entry h⟩

/-! ### The case of letters -/

theorem toNat_toLower (c : Char) :
    c.toLower.toNat = if 65 ≤ c.toNat ∧ c.toNat ≤ 90 then c.toNat + 32 else c.toNat := by
  have hletter : (c.val ≥ 'A'.val ∧ c.val ≤ 'Z'.val) ↔ 65 ≤ c.toNat ∧ c.toNat ≤ 90 := Iff.rfl
  unfold Char.toLower
  split
  · rename_i h
    have hsum : (c.val + ('a'.val - 'A'.val)).toNat = (c.toNat + 32) % 2 ^ 32 := UInt32.toNat_add _ _
    rw [if_pos (hletter.1 h), Char.toNat, hsum]
    have hle := (hletter.1 h).2
    omega
  · rename_i h
    rw [if_neg (mt hletter.2 h)]

section

variable {s : CharSet} {lo hi : Char} (hs : Ascending s.ranges) (hle : lo ≤ hi)

include hs hle

theorem mem_inter_range_iff (d : Char) :
    (∃ r ∈ (s.inter (range lo hi)).ranges, r.1 ≤ d.toNat ∧ d.toNat ≤ r.2) ↔
      s.contains d ∧ lo ≤ d ∧ d ≤ hi := by
  have hinter := contains_inter hs (ascending_range hle) d
  rw [contains_range, Bool.eq_iff_iff] at hinter
  simpa [contains, Text.inRanges] using hinter

/-- The part of a set in a range lies in the range. -/
theorem ends_inter_range {r : Nat × Nat} (hr : r ∈ (s.inter (range lo hi)).ranges) :
    lo.toNat ≤ r.1 ∧ r.1 ≤ r.2 ∧ r.2 ≤ hi.toNat := by
  have hinter := ascending_inter hs (ascending_range hle)
  obtain ⟨first, hfirst⟩ := exists_toNat_eq (hinter.valid r hr).1
  obtain ⟨last, hlast⟩ := exists_toNat_eq (hinter.valid r hr).2
  have hrange := hinter.le r hr
  have hlo := ((mem_inter_range_iff hs hle first).1 ⟨r, hr, hfirst.ge, hfirst ▸ hrange⟩).2.1
  have hhi := ((mem_inter_range_iff hs hle last).1 ⟨r, hr, hlast ▸ hrange, hlast.le⟩).2.2
  exact ⟨hfirst ▸ hlo, hrange, hlast ▸ hhi⟩

variable {move : Nat → Nat}

theorem ascending_moved
    (hmove : ∀ a b k, lo.toNat ≤ a → b ≤ hi.toNat → a + k ≤ b → move a + k ≤ move b)
    (hascii : move hi.toNat < 0x80) : Ascending (s.moved (range lo hi) move) := by
  have hinter := ascending_inter hs (ascending_range hle)
  have hends {r : Nat × Nat} (hr : r ∈ (s.inter (range lo hi)).ranges) :=
    ends_inter_range hs hle hr
  have hvalid {n : Nat} (hlo : lo.toNat ≤ n) (hhi : n ≤ hi.toNat) : (move n).isValidChar :=
    .inl (by have := hmove n hi.toNat 0 hlo (Nat.le_refl _) hhi; omega)
  refine ⟨?_, ?_, ?_⟩
  · refine List.pairwise_map.2 (hinter.pairwise.imp_of_mem fun {r r'} hr hr' hgap => ?_)
    obtain ⟨hlo, hrange, -⟩ := hends hr
    obtain ⟨-, hrange', hhi⟩ := hends hr'
    exact hmove r.2 r'.1 2 (by omega) (by omega) hgap
  · intro r' hr'
    obtain ⟨r, hr, rfl⟩ := List.mem_map.1 hr'
    obtain ⟨hlo, hrange, hhi⟩ := hends hr
    exact hmove r.1 r.2 0 hlo hhi hrange
  · intro r' hr'
    obtain ⟨r, hr, rfl⟩ := List.mem_map.1 hr'
    obtain ⟨hlo, hrange, hhi⟩ := hends hr
    exact ⟨hvalid hlo (by omega), hvalid (by omega) hhi⟩

/-- The members of moved ranges of letters are moved letters. -/
theorem inRanges_moved (hascii : hi.toNat < 0x80)
    (hmove : ∀ first last n, lo.toNat ≤ first → last ≤ hi.toNat →
      (move first ≤ n ∧ n ≤ move last ↔ ∃ d, first ≤ d ∧ d ≤ last ∧ n = move d)) (c : Char) :
    Text.inRanges (s.moved (range lo hi) move) c ↔
      ∃ d, s.contains d ∧ (lo ≤ d ∧ d ≤ hi) ∧ c.toNat = move d.toNat := by
  simp only [Text.inRanges, moved, List.any_map, List.any_eq_true, Function.comp_apply,
    Bool.and_eq_true, decide_eq_true_eq]
  constructor
  · rintro ⟨r, hr, hc⟩
    obtain ⟨hlo, -, hhi⟩ := ends_inter_range hs hle hr
    obtain ⟨n, hfirst, hlast, hn⟩ := (hmove r.1 r.2 c.toNat hlo hhi).1 hc
    obtain ⟨d, rfl⟩ := exists_toNat_eq (.inl (by omega) : n.isValidChar)
    obtain ⟨hsd, hld⟩ := (mem_inter_range_iff hs hle d).1 ⟨r, hr, hfirst, hlast⟩
    exact ⟨d, hsd, hld, hn⟩
  · rintro ⟨d, hsd, hld, hd⟩
    obtain ⟨r, hr, hfirst, hlast⟩ := (mem_inter_range_iff hs hle d).2 ⟨hsd, hld⟩
    obtain ⟨hlo, -, hhi⟩ := ends_inter_range hs hle hr
    exact ⟨r, hr, (hmove r.1 r.2 c.toNat hlo hhi).2 ⟨d.toNat, hfirst, hlast, hd⟩⟩

end

theorem toLower_eq_toLower_iff {c d : Char} :
    d.toLower = c.toLower ↔ d = c ∨ ('a' ≤ d ∧ d ≤ 'z') ∧ c.toNat = d.toNat - 32 ∨
      ('A' ≤ d ∧ d ≤ 'Z') ∧ c.toNat = d.toNat + 32 := by
  have hle (a b : Char) : a ≤ b ↔ a.toNat ≤ b.toNat := Iff.rfl
  have heq (a b : Char) : a = b ↔ a.toNat = b.toNat := Char.toNat_inj.symm
  rw [heq, heq, toNat_toLower, toNat_toLower, hle, hle, hle, hle]
  change _ ↔ _ ∨ (97 ≤ d.toNat ∧ d.toNat ≤ 122) ∧ _ ∨ (65 ≤ d.toNat ∧ d.toNat ≤ 90) ∧ _
  split <;> split <;> omega

/-- The set of both cases has the characters that differ from one of a set in their case at most. -/
theorem contains_anyCase {s : CharSet} (hs : Ascending s.ranges) (c : Char) :
    s.anyCase.contains c ↔ ∃ d, s.contains d ∧ d.toLower = c.toLower := by
  have hupper : Text.inRanges (s.moved (range 'a' 'z') (· - 32)) c ↔
      ∃ d, s.contains d ∧ ('a' ≤ d ∧ d ≤ 'z') ∧ c.toNat = d.toNat - 32 := by
    refine inRanges_moved hs (by decide) (by decide) (fun first last n hfirst hlast => ?_) c
    have hfirst : 97 ≤ first := hfirst
    constructor
    · rintro ⟨hle, hge⟩
      exact ⟨n + 32, by omega, by omega, by omega⟩
    · rintro ⟨d, hle, hge, rfl⟩
      omega
  have hlower : Text.inRanges (s.moved (range 'A' 'Z') (· + 32)) c ↔
      ∃ d, s.contains d ∧ ('A' ≤ d ∧ d ≤ 'Z') ∧ c.toNat = d.toNat + 32 := by
    refine inRanges_moved hs (by decide) (by decide) (fun first last n hfirst hlast => ?_) c
    constructor
    · rintro ⟨hle, hge⟩
      exact ⟨n - 32, by omega, by omega, by omega⟩
    · rintro ⟨d, hle, hge, rfl⟩
      omega
  have hmoved : s.anyCase.contains c ↔ (s.contains c ∨ Text.inRanges (s.moved (range 'a' 'z') (· - 32)) c) ∨
      Text.inRanges (s.moved (range 'A' 'Z') (· + 32)) c := by
    rw [anyCase, contains_union, contains_union, Bool.or_eq_true, Bool.or_eq_true]
    rfl
  rw [hmoved, hupper, hlower]
  simp only [toLower_eq_toLower_iff, and_or_left, exists_or, exists_eq_right, or_assoc]

/-- A set has each of its letters in both cases. -/
def BothCases (s : CharSet) : Prop := ∀ c d : Char, c.toLower = d.toLower → s.contains c = s.contains d

/-- A set that has its letters in both cases has the characters that differ from one of them in their case
at most. -/
theorem BothCases.contains_iff {s : CharSet} (h : s.BothCases) (c : Char) :
    s.contains c ↔ ∃ d, s.contains d ∧ d.toLower = c.toLower := by
  constructor
  · intro hc
    exact ⟨c, hc, rfl⟩
  · rintro ⟨d, hd, hcase⟩
    rwa [← h d c hcase]

theorem ascending_anyCase {s : CharSet} (hs : Ascending s.ranges) : Ascending s.anyCase.ranges := by
  have hupper : Ascending (s.moved (range 'a' 'z') (· - 32)) := by
    refine ascending_moved hs (by decide) (fun a b k ha _ h => ?_) (by decide)
    have ha : 97 ≤ a := ha
    omega
  have hlower : Ascending (s.moved (range 'A' 'Z') (· + 32)) :=
    ascending_moved hs (by decide) (fun a b k _ _ h => by omega) (by decide)
  exact ascending_union (ascending_union hs hupper) hlower

theorem bothCases_anyCase {s : CharSet} (hs : Ascending s.ranges) : s.anyCase.BothCases := by
  intro c d h
  rw [Bool.eq_iff_iff, contains_anyCase hs, contains_anyCase hs, h]

/-- What is put together from sets with their letters in both cases has its letters in both cases. -/
theorem BothCases.combine {s t u : CharSet} (f : Bool → Bool → Bool) (hs : s.BothCases)
    (ht : t.BothCases) (hu : ∀ c, u.contains c = f (s.contains c) (t.contains c)) : u.BothCases := by
  intro c d h
  rw [hu, hu, hs c d h, ht c d h]

end CharSet

/-! ### Sets with a note -/

namespace CaseSet

open CharSet

/-- The note of a set is right, and so are its ranges. -/
structure Noted (s : CaseSet) : Prop where
  /-- The ranges are ascending. -/
  ascending : Ascending s.chars.ranges
  /-- If the set is noted to have its letters in both cases, it has. -/
  bothCases : s.bothCases → s.chars.BothCases

variable {s t : CaseSet}

theorem contains_of_isEmpty (h : s.isEmpty) (c : Char) : s.chars.contains c = false := by
  rw [isEmpty, List.isEmpty_iff] at h
  rw [CharSet.contains, Text.inRanges, h, List.any_nil]

theorem bothCases_of_isEmpty (h : s.isEmpty) : s.chars.BothCases := by
  intro c d _
  rw [contains_of_isEmpty h, contains_of_isEmpty h]

theorem contains_union (s t : CaseSet) (c : Char) :
    (s.union t).chars.contains c = (s.chars.contains c || t.chars.contains c) := by
  rw [union]
  split
  · rename_i h
    obtain h | h := h
    · rw [contains_of_isEmpty h, Bool.or_false]
    · rw [h, Bool.or_self]
  · exact CharSet.contains_union _ _ c

theorem contains_inter (hs : s.Noted) (ht : t.Noted) (c : Char) :
    (s.inter t).chars.contains c = (s.chars.contains c && t.chars.contains c) := by
  rw [inter]
  split
  · rename_i h
    rw [contains_of_isEmpty h, Bool.false_and]
  · split
    · rename_i h
      rw [contains_of_isEmpty h, Bool.and_false]
      rfl
    · exact CharSet.contains_inter hs.ascending ht.ascending c

theorem contains_difference (hs : s.Noted) (ht : t.Noted) (c : Char) :
    (s.difference t).chars.contains c = (s.chars.contains c && !t.chars.contains c) := by
  rw [difference]
  split
  · rename_i h
    obtain h | h := Bool.or_eq_true _ _ ▸ h
    · rw [contains_of_isEmpty h, Bool.false_and]
    · rw [contains_of_isEmpty h, Bool.not_false, Bool.and_true]
  · exact CharSet.contains_difference hs.ascending ht.ascending c

theorem noted_empty : CaseSet.empty.Noted := ⟨ascending_empty, fun _ _ _ _ => rfl⟩

theorem Noted.add {u : CharSet} (hs : s.Noted) (hu : Ascending u.ranges) : (s.add u).Noted :=
  ⟨ascending_union hs.ascending hu, nofun⟩

theorem Noted.union (hs : s.Noted) (ht : t.Noted) : (s.union t).Noted := by
  rw [CaseSet.union]
  split
  · exact hs
  · refine ⟨ascending_union hs.ascending ht.ascending, fun h => ?_⟩
    obtain ⟨hboths, hbotht⟩ := Bool.and_eq_true _ _ ▸ h
    exact (hs.bothCases hboths).combine _ (ht.bothCases hbotht) (CharSet.contains_union _ _)

theorem Noted.inter (hs : s.Noted) (ht : t.Noted) : (s.inter t).Noted := by
  rw [CaseSet.inter]
  split
  · exact hs
  · split
    · exact noted_empty
    · refine ⟨ascending_inter hs.ascending ht.ascending, fun h => ?_⟩
      obtain ⟨hboths, hbotht⟩ := Bool.and_eq_true _ _ ▸ h
      exact (hs.bothCases hboths).combine _ (ht.bothCases hbotht)
        (CharSet.contains_inter hs.ascending ht.ascending)

theorem Noted.difference (hs : s.Noted) (ht : t.Noted) : (s.difference t).Noted := by
  rw [CaseSet.difference]
  split
  · exact hs
  · refine ⟨ascending_difference hs.ascending ht.ascending, fun h => ?_⟩
    obtain ⟨hboths, hbotht⟩ := Bool.and_eq_true _ _ ▸ h
    exact (hs.bothCases hboths).combine (fun a b => a && !b) (ht.bothCases hbotht)
      (CharSet.contains_difference hs.ascending ht.ascending)

theorem Noted.symmetricDifference (hs : s.Noted) (ht : t.Noted) : (s.symmetricDifference t).Noted :=
  (hs.union ht).difference (hs.inter ht)

theorem Noted.complement (hs : s.Noted) : s.complement.Noted := by
  refine ⟨ascending_complement hs.ascending, fun h => ?_⟩
  have hboth : s.chars.BothCases := by
    obtain h | h := Bool.or_eq_true _ _ ▸ h
    · exact bothCases_of_isEmpty h
    · exact hs.bothCases h
  exact hboth.combine (fun a _ => !a) hboth (contains_complement hs.ascending)

theorem contains_symmetricDifference (hs : s.Noted) (ht : t.Noted) (c : Char) :
    (s.symmetricDifference t).chars.contains c = (s.chars.contains c != t.chars.contains c) := by
  rw [symmetricDifference, contains_difference (hs.union ht) (hs.inter ht), contains_union,
    contains_inter hs ht]
  cases s.chars.contains c <;> cases t.chars.contains c <;> rfl

/-- A completed set is noted to have its letters in both cases, and has. -/
theorem Noted.complete? {unicode : Bool} (hs : s.Noted) (h : s.complete? unicode = some t) : t.Noted := by
  rw [CaseSet.complete?] at h
  split at h
  · rename_i hboth
    cases h
    refine ⟨hs.ascending, fun _ => ?_⟩
    obtain hboth | hboth := Bool.or_eq_true _ _ ▸ hboth
    · exact bothCases_of_isEmpty hboth
    · exact hs.bothCases hboth
  · split at h <;> cases h
    exact ⟨ascending_anyCase hs.ascending, fun _ => bothCases_anyCase hs.ascending⟩

/-- **A set is completed to its letters in both cases**, whether they are known to be there or are
added. -/
theorem contains_complete? {unicode : Bool} (hs : s.Noted) (h : s.complete? unicode = some t) (c : Char) :
    t.chars.contains c ↔ ∃ d, s.chars.contains d ∧ d.toLower = c.toLower := by
  rw [complete?] at h
  split at h
  · rename_i hboth
    cases h
    obtain hboth | hboth := Bool.or_eq_true _ _ ▸ hboth
    · exact (bothCases_of_isEmpty hboth).contains_iff c
    · exact (hs.bothCases hboth).contains_iff c
  · split at h <;> cases h
    exact contains_anyCase hs.ascending c

end CaseSet

end ShaderFilter.Pattern
