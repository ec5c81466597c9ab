import ShaderFilter.Pattern.Combine
import ShaderFilter.Proofs.Pattern.Matching
import ShaderFilter.Proofs.Pattern.Sets

/-!
# Combined patterns

The shortened form in which patterns are put together matches what its parts match: one after the other in a
sequence (`matches_sequence`), any of them in a choice (`matches_choice`), some number of times in a
repetition (`matches_times`), and a character of a set (`matches_ofSet`).

A choice brings out what all alternatives start with because what comes first may be taken out of an
alternative, and makes a set of single characters. A repetition of what can only be empty is shortened
because going through it once more makes no difference. Both rely on patterns whose sets have ascending
ranges and whose repetitions have a greatest number that is not below the least one (`Proper`); combined
patterns are so too.
-/

namespace ShaderFilter.Pattern

open Relation Place CharSet

/-- The sets of a pattern have ascending ranges, and its repetitions a greatest number of times that is not
below the least one. -/
def Proper : Pattern → Prop
  | .skip | .text _ | .check _ => True
  | .one s => Ascending s.ranges
  | .seq p q | .either p q => Proper p ∧ Proper q
  | .repeated p least most => Proper p ∧ ∀ m, most = some m → least ≤ m
  | .captured _ p => Proper p

/-! ### Sets -/

theorem matches_ofSet {s : CharSet} (hs : Ascending s.ranges) :
    (ofSet s).Matches = (Pattern.one s).Matches := by
  rw [ofSet]
  split
  · rename_i first last hranges
    split
    · rename_i hone
      subst hone
      have hvalid := (hs.valid (first, first) (by simp [hranges])).1
      obtain ⟨d, rfl⟩ := exists_toNat_eq hvalid
      have hmem (c : Char) : s.contains c ↔ c = d := by
        rw [CharSet.contains, hranges, inRanges_cons, ← Char.toNat_inj]
        simp only [Text.inRanges, List.any_nil, Bool.false_eq_true, or_false]
        omega
      funext x y
      simp [Matches, hmem]
    · rfl
  · rfl

theorem proper_ofSet {s : CharSet} (hs : Ascending s.ranges) : (ofSet s).Proper := by
  unfold ofSet
  split
  · split
    · trivial
    · exact hs
  · exact hs

/-! ### Sequences -/

/-- Patterns match what lies between two places, one after the other. -/
def InTurn (ps : List Pattern) : Place → Place → Prop := ps.foldr (fun p r => Comp p.Matches r) Eq

theorem inTurn_append (ps qs : List Pattern) : InTurn (ps ++ qs) = Comp (InTurn ps) (InTurn qs) := by
  induction ps with
  | nil => exact eq_comp.symm
  | cons p ps ih =>
    rw [List.cons_append, InTurn, List.foldr_cons, ← InTurn, ih, ← comp_assoc]
    rfl

theorem inTurn_singleton (p : Pattern) : InTurn [p] = p.Matches := comp_eq

theorem inTurn_parts (p : Pattern) : InTurn p.parts = p.Matches := by
  induction p with
  | skip => rfl
  | seq p q ihp ihq =>
    rw [parts, inTurn_append, ihp, ihq]
    rfl
  | _ => exact inTurn_singleton _

theorem inTurn_joinPart (p : Pattern) (ps : List Pattern) :
    InTurn (joinPart p ps) = Comp p.Matches (InTurn ps) := by
  unfold joinPart
  split
  · rename_i cs ds ps
    have hover : Over (cs ++ ds) = Comp (Over cs) (Over ds) := by
      funext x y
      exact propext over_append
    change Comp (Over (cs ++ ds)) (InTurn ps) = Comp (Over cs) (Comp (Over ds) (InTurn ps))
    rw [hover, comp_assoc]
  · rfl

theorem matches_ofParts (ps : List Pattern) : (ofParts ps).Matches = InTurn ps := by
  fun_induction ofParts ps with
  | case1 => rfl
  | case2 p => exact (inTurn_singleton p).symm
  | case3 p ps _ ih =>
    rw [Matches, ih]
    rfl

/-- **A sequence matches what its parts match, one after the other.** -/
theorem matches_sequence (ps : List Pattern) : (sequence ps).Matches = InTurn ps := by
  have hjoin (qs : List Pattern) : InTurn (qs.foldr joinPart []) = InTurn qs := by
    induction qs with
    | nil => rfl
    | cons q qs ih =>
      rw [List.foldr_cons, inTurn_joinPart, ih]
      rfl
  rw [sequence, matches_ofParts, hjoin]
  induction ps with
  | nil => rfl
  | cons p ps ih =>
    rw [List.flatMap_cons, inTurn_append, inTurn_parts, ih]
    rfl

theorem proper_of_mem_parts {p q : Pattern} (hp : p.Proper) (hq : q ∈ p.parts) : q.Proper := by
  induction p with
  | skip => cases hq
  | seq p p' ih ih' =>
    obtain hq | hq := List.mem_append.1 hq
    · exact ih hp.1 hq
    · exact ih' hp.2 hq
  | _ => exact List.mem_singleton.1 hq ▸ hp

theorem proper_ofParts {ps : List Pattern} (hps : ∀ p ∈ ps, p.Proper) : (ofParts ps).Proper := by
  fun_induction ofParts ps with
  | case1 => trivial
  | case2 p => exact hps p List.mem_cons_self
  | case3 p ps _ ih =>
    obtain ⟨hp, hps⟩ := List.forall_mem_cons.1 hps
    exact ⟨hp, ih hps⟩

theorem proper_sequence {ps : List Pattern} (hps : ∀ p ∈ ps, p.Proper) : (sequence ps).Proper := by
  have hjoin {p : Pattern} {qs : List Pattern} (hp : p.Proper) (hqs : ∀ q ∈ qs, q.Proper) :
      ∀ q ∈ joinPart p qs, q.Proper := by
    unfold joinPart
    split
    · exact List.forall_mem_cons.2 ⟨trivial, (List.forall_mem_cons.1 hqs).2⟩
    · exact List.forall_mem_cons.2 ⟨hp, hqs⟩
  have hparts : ∀ q ∈ ps.flatMap parts, q.Proper := by
    intro q hq
    obtain ⟨p, hp, hq⟩ := List.mem_flatMap.1 hq
    exact proper_of_mem_parts (hps p hp) hq
  refine proper_ofParts ?_
  generalize ps.flatMap parts = qs at hparts
  induction qs with
  | nil => nofun
  | cons q qs ih =>
    obtain ⟨hq, hqs⟩ := List.forall_mem_cons.1 hparts
    exact hjoin hq (ih hqs)

/-! ### Choices -/

/-- One of some patterns matches what lies between two places. -/
def AnyOf (ps : List Pattern) (x y : Place) : Prop := ∃ p ∈ ps, p.Matches x y

theorem anyOf_cons (p : Pattern) (ps : List Pattern) :
    AnyOf (p :: ps) = fun x y => p.Matches x y ∨ AnyOf ps x y := by
  funext x y
  simp [AnyOf]

theorem anyOf_append (ps qs : List Pattern) :
    AnyOf (ps ++ qs) = fun x y => AnyOf ps x y ∨ AnyOf qs x y := by
  funext x y
  simp [AnyOf, or_and_right, exists_or]

theorem anyOf_alternatives (p : Pattern) : AnyOf p.alternatives = p.Matches := by
  induction p with
  | either p q ihp ihq =>
    rw [alternatives, anyOf_append, ihp, ihq]
    rfl
  | _ =>
    funext x y
    simp [AnyOf, alternatives]

theorem anyOf_flatMap_alternatives (ps : List Pattern) : AnyOf (ps.flatMap alternatives) = AnyOf ps := by
  induction ps with
  | nil => rfl
  | cons p ps ih => rw [List.flatMap_cons, anyOf_append, anyOf_alternatives, ih, anyOf_cons]

theorem matches_ofAlternatives (ps : List Pattern) : (ofAlternatives ps).Matches = AnyOf ps := by
  fun_induction ofAlternatives ps with
  | case1 =>
    funext x y
    simp [Matches, AnyOf, CharSet.contains, CharSet.empty, Text.inRanges]
  | case2 p =>
    funext x y
    simp [AnyOf]
  | case3 p ps _ ih =>
    rw [Matches, ih, anyOf_cons]

theorem matches_one_union (s t : CharSet) :
    (Pattern.one (s.union t)).Matches =
      fun x y => (Pattern.one s).Matches x y ∨ (Pattern.one t).Matches x y := by
  funext x y
  simp [Matches, CharSet.contains_union, or_and_right, exists_or]

theorem matches_one_single (c : Char) : (Pattern.one (.single c)).Matches = (Pattern.text [c]).Matches := by
  funext x y
  simp [Matches, contains_single]

/-- The set of some single characters takes one of them. -/
theorem characters?_eq_some {ps : List Pattern} {s : CharSet} (h : characters? ps = some s) :
    Ascending s.ranges ∧ (Pattern.one s).Matches = AnyOf ps := by
  induction ps generalizing s with
  | nil =>
    cases h
    exact ⟨ascending_empty, matches_ofAlternatives []⟩
  | cons p ps ih =>
    rw [characters?, List.foldrM_cons, ← characters?] at h
    obtain ⟨t, ht, h⟩ := Option.bind_eq_some_iff.1 h
    obtain ⟨c, rfl, rfl⟩ : ∃ c, p = .text [c] ∧ (CharSet.single c).union t = s := by
      split at h <;> simp_all
    obtain ⟨hascending, hmatches⟩ := ih ht
    refine ⟨ascending_union (ascending_range (Char.le_refl c)) hascending, ?_⟩
    rw [matches_one_union, matches_one_single, hmatches, anyOf_cons]

/-- The union of some sets takes what one of them does. -/
theorem sets?_eq_some {ps : List Pattern} {s : CharSet} (hps : ∀ p ∈ ps, p.Proper)
    (h : sets? ps = some s) : Ascending s.ranges ∧ (Pattern.one s).Matches = AnyOf ps := by
  induction ps generalizing s with
  | nil =>
    cases h
    exact ⟨ascending_empty, matches_ofAlternatives []⟩
  | cons p ps ih =>
    rw [sets?, List.foldrM_cons, ← sets?] at h
    obtain ⟨t, ht, h⟩ := Option.bind_eq_some_iff.1 h
    obtain ⟨u, rfl, rfl⟩ : ∃ u, p = .one u ∧ u.union t = s := by
      split at h <;> simp_all
    obtain ⟨hp, hps⟩ := List.forall_mem_cons.1 hps
    obtain ⟨hascending, hmatches⟩ := ih hps ht
    refine ⟨ascending_union hp hascending, ?_⟩
    rw [matches_one_union, hmatches, anyOf_cons]

theorem matches_merge {ps : List Pattern} (hps : ∀ p ∈ ps, p.Proper) :
    (merge ps).Matches = AnyOf ps := by
  unfold merge
  split
  · funext x y
    simp [AnyOf]
  · cases hchars : characters? ps with
    | some s =>
      obtain ⟨hascending, hmatches⟩ := characters?_eq_some hchars
      exact (matches_ofSet hascending).trans hmatches
    | none =>
      cases hsets : sets? ps with
      | some s =>
        obtain ⟨hascending, hmatches⟩ := sets?_eq_some hps hsets
        exact (matches_ofSet hascending).trans hmatches
      | none => exact matches_ofAlternatives ps

theorem commonStart_prefix (ps qs : List Pattern) :
    commonStart ps qs <+: ps ∧ commonStart ps qs <+: qs := by
  fun_induction commonStart ps qs with
  | case1 p ps qs ih =>
    exact ⟨List.cons_prefix_cons.2 ⟨rfl, ih.1⟩, List.cons_prefix_cons.2 ⟨rfl, ih.2⟩⟩
  | case2 => exact ⟨List.nil_prefix, List.nil_prefix⟩
  | case3 => exact ⟨List.nil_prefix, List.nil_prefix⟩

/-- All sequences start with what they have in common. -/
theorem commonParts_prefix {sequences : List (List Pattern)} :
    ∀ ps ∈ sequences, commonParts sequences <+: ps := by
  have hfold (others : List (List Pattern)) (first : List Pattern) :
      others.foldl commonStart first <+: first ∧ ∀ ps ∈ others, others.foldl commonStart first <+: ps := by
    induction others generalizing first with
    | nil => exact ⟨List.prefix_rfl, nofun⟩
    | cons ps others ih =>
      obtain ⟨hfirst, hothers⟩ := ih (commonStart first ps)
      obtain ⟨hl, hr⟩ := commonStart_prefix first ps
      exact ⟨hfirst.trans hl, List.forall_mem_cons.2 ⟨hfirst.trans hr, hothers⟩⟩
  unfold commonParts
  split
  · nofun
  · rename_i first others
    split
    · exact List.forall_mem_cons.2 (hfold others first)
    · intro ps _
      exact List.nil_prefix

theorem proper_of_mem_alternatives {p q : Pattern} (hp : p.Proper) (hq : q ∈ p.alternatives) :
    q.Proper := by
  induction p with
  | either p p' ih ih' =>
    obtain hq | hq := List.mem_append.1 hq
    · exact ih hp.1 hq
    · exact ih' hp.2 hq
  | _ => exact List.mem_singleton.1 hq ▸ hp

theorem proper_of_mem_flatMap_alternatives {ps : List Pattern} (hps : ∀ p ∈ ps, p.Proper) :
    ∀ q ∈ ps.flatMap alternatives, q.Proper := by
  intro q hq
  obtain ⟨p, hp, hq⟩ := List.mem_flatMap.1 hq
  exact proper_of_mem_alternatives (hps p hp) hq

theorem proper_ofAlternatives {ps : List Pattern} (hps : ∀ p ∈ ps, p.Proper) :
    (ofAlternatives ps).Proper := by
  fun_induction ofAlternatives ps with
  | case1 => exact ascending_empty
  | case2 p => exact hps p List.mem_cons_self
  | case3 p ps _ ih =>
    obtain ⟨hp, hps⟩ := List.forall_mem_cons.1 hps
    exact ⟨hp, ih hps⟩

theorem proper_merge {ps : List Pattern} (hps : ∀ p ∈ ps, p.Proper) : (merge ps).Proper := by
  unfold merge
  split
  · rename_i p
    exact hps p List.mem_cons_self
  · cases hchars : characters? ps with
    | some s => exact proper_ofSet (characters?_eq_some hchars).1
    | none =>
      cases hsets : sets? ps with
      | some s => exact proper_ofSet (sets?_eq_some hps hsets).1
      | none => exact proper_ofAlternatives hps

/-- What some patterns have in common at their starts may be matched before the rest of one of them. -/
theorem comp_inTurn_rests {front : List Pattern} {ps : List Pattern}
    (hfront : ∀ p ∈ ps, front <+: p.parts) :
    Comp (InTurn front) (AnyOf (ps.map fun p => sequence (p.parts.drop front.length))) = AnyOf ps := by
  have hsplit : ∀ p ∈ ps, p.Matches =
      Comp (InTurn front) (sequence (p.parts.drop front.length)).Matches := by
    intro p hp
    obtain ⟨rest, hrest⟩ := hfront p hp
    rw [matches_sequence, ← inTurn_append, ← hrest, List.drop_left, hrest, inTurn_parts]
  funext x y
  rw [eq_iff_iff]
  constructor
  · rintro ⟨z, hz, q, hq, h⟩
    obtain ⟨p, hp, rfl⟩ := List.mem_map.1 hq
    refine ⟨p, hp, ?_⟩
    rw [hsplit p hp]
    exact ⟨z, hz, h⟩
  · rintro ⟨p, hp, h⟩
    rw [hsplit p hp] at h
    obtain ⟨z, hz, h⟩ := h
    exact ⟨z, hz, _, List.mem_map.2 ⟨p, hp, rfl⟩, h⟩

/-- **A choice matches what one of its patterns matches**, and is proper if they are. -/
theorem matches_choice {ps : List Pattern} (hps : ∀ p ∈ ps, p.Proper) :
    (choice ps).Matches = AnyOf ps ∧ (choice ps).Proper := by
  have hproper := proper_of_mem_flatMap_alternatives hps
  unfold choice
  rw [← anyOf_flatMap_alternatives]
  generalize ps.flatMap alternatives = qs at hproper
  dsimp only
  split
  · rename_i p front _ hcommon
    have hfront : ∀ q ∈ qs, p :: front <+: q.parts := by
      intro q hq
      rw [← hcommon]
      exact commonParts_prefix _ (List.mem_map.2 ⟨q, hq, rfl⟩)
    have hrests : ∀ r ∈ (qs.map parts).map fun q => sequence (q.drop (front.length + 1)), r.Proper := by
      intro r hr
      obtain ⟨q, hq, rfl⟩ := List.mem_map.1 (List.map_map ▸ hr)
      exact proper_sequence fun _ hmem => proper_of_mem_parts (hproper q hq) (List.mem_of_mem_drop hmem)
    have hmerge := matches_merge (proper_of_mem_flatMap_alternatives hrests)
    have hrest : AnyOf ((qs.map parts).map fun q => sequence (q.drop (front.length + 1))) =
        AnyOf (qs.map fun q => sequence (q.parts.drop (p :: front).length)) := by
      rw [List.map_map]
      rfl
    constructor
    · rw [matches_sequence, inTurn_append, inTurn_singleton, hmerge, anyOf_flatMap_alternatives,
        hrest, comp_inTurn_rests hfront]
    · obtain ⟨q, hq⟩ : ∃ q, q ∈ qs := by
        refine List.exists_mem_of_ne_nil qs fun hnil => ?_
        subst hnil
        cases hcommon
      refine proper_sequence fun r hr => ?_
      obtain hr | hr := List.mem_append.1 hr
      · exact proper_of_mem_parts (hproper q hq) ((hfront q hq).subset hr)
      · exact List.mem_singleton.1 hr ▸ proper_merge (proper_of_mem_flatMap_alternatives hrests)
  · exact ⟨matches_merge hproper, proper_merge hproper⟩

/-! ### Repetitions -/

section

variable {r : Place → Place → Prop} (hr : ∀ x y, r x y → x = y)

include hr

/-- What does not lead to another place may as well be gone through once. -/
theorem times_of_eq (n : Nat) : Times r (n + 1) = r := by
  induction n with
  | zero => exact times_one r
  | succ n ih =>
    rw [Times, ih]
    funext x y
    rw [eq_iff_iff]
    constructor
    · rintro ⟨z, hz, h⟩
      exact (hr x z hz) ▸ h
    · intro h
      obtain rfl := hr x y h
      exact ⟨x, h, h⟩

theorem exists_times_of_eq {least : Nat} {most : Option Nat} (hle : ∀ m, most = some m → least ≤ m)
    {x y : Place} :
    (∃ n, least ≤ n ∧ (∀ m, most = some m → n ≤ max least m) ∧ Times r n x y) ↔
      least = 0 ∧ x = y ∨ most ≠ some 0 ∧ r x y := by
  constructor
  · rintro ⟨_ | n, hleast, hmost, h⟩
    · exact .inl ⟨Nat.le_zero.1 hleast, h⟩
    · refine .inr ⟨fun hzero => ?_, times_of_eq hr n ▸ h⟩
      have := hmost 0 hzero
      have := hle 0 hzero
      omega
  · rintro (⟨rfl, h⟩ | ⟨hmost, h⟩)
    · exact ⟨0, Nat.le_refl _, fun m _ => Nat.zero_le _, h⟩
    · refine ⟨max least 1, Nat.le_max_left _ _, fun m hm => ?_, ?_⟩
      · have hne : m ≠ 0 := fun hzero => hmost (hzero ▸ hm)
        omega
      · obtain ⟨n, hn⟩ : ∃ n, max least 1 = n + 1 := ⟨max least 1 - 1, by omega⟩
        rwa [hn, times_of_eq hr]

end

/-- What a pattern that can only be empty matches is empty. -/
theorem eq_of_most? {p : Pattern} (hp : p.Proper) (hmost : p.most? = some 0) {x y : Place}
    (h : p.Matches x y) : x = y := by
  induction p generalizing x y with
  | skip => exact h
  | text cs =>
    have hnil : cs = [] := by simpa [most?] using hmost
    subst hnil
    exact over_nil.1 h
  | one s =>
    obtain ⟨r, -, hr⟩ := Option.map_eq_some_iff.1 hmost
    exact absurd hr (Nat.ne_of_gt (Char.utf8Size_pos _))
  | check a => exact h.2
  | seq p q ihp ihq =>
    obtain ⟨a, ha, b, hb, hsum⟩ : ∃ a, p.most? = some a ∧ ∃ b, q.most? = some b ∧ a + b = 0 := by
      simpa [most?, Option.bind_eq_some_iff] using hmost
    obtain ⟨rfl, rfl⟩ := Nat.add_eq_zero_iff.1 hsum
    obtain ⟨z, hpz, hqz⟩ := h
    exact (ihp hp.1 ha hpz).trans (ihq hp.2 hb hqz)
  | either p q ihp ihq =>
    obtain ⟨a, ha, b, hb, hmax⟩ : ∃ a, p.most? = some a ∧ ∃ b, q.most? = some b ∧ max a b = 0 := by
      simpa [most?, Option.bind_eq_some_iff] using hmost
    obtain ⟨rfl, rfl⟩ : a = 0 ∧ b = 0 := by omega
    exact h.elim (ihp hp.1 ha) (ihq hp.2 hb)
  | repeated p least most ih =>
    obtain ⟨a, ha, m, rfl, hzero⟩ : ∃ a, p.most? = some a ∧ ∃ m, most = some m ∧ a * m = 0 := by
      simpa [most?, Option.bind_eq_some_iff] using hmost
    obtain ⟨n, hleast, hn, h⟩ := h
    obtain rfl | rfl := Nat.mul_eq_zero.1 hzero
    · obtain _ | n := n
      · exact h
      · rw [times_of_eq fun x y => ih hp.1 ha] at h
        exact ih hp.1 ha h
    · have hle := hp.2 0 rfl
      have hmost := hn 0 rfl
      obtain rfl : n = 0 := by omega
      exact h
  | captured index p ih => exact ih hp hmost h

theorem matches_repeated_zero (p : Pattern) : (Pattern.repeated p 0 (some 0)).Matches = Eq := by
  rw [matches_repeated_some, upTo_zero, comp_eq]
  rfl

theorem matches_repeated_one (p : Pattern) : (Pattern.repeated p 1 (some 1)).Matches = p.Matches := by
  rw [matches_repeated_some, upTo_zero, comp_eq, times_one]

/-- **A repetition matches what its pattern matches some number of times**, and is proper if the pattern
is. -/
theorem matches_times {p : Pattern} (hp : p.Proper) {least : Nat} {most : Option Nat}
    (hle : ∀ m, most = some m → least ≤ m) :
    (p.times least most).Matches = (Pattern.repeated p least most).Matches ∧
      (p.times least most).Proper := by
  have hshort (least' : Nat) (most' : Option Nat) (hle' : ∀ m, most' = some m → least' ≤ m) :
      (if least' = 0 ∧ most' = some 0 then .skip
        else if least' = 1 ∧ most' = some 1 then p else .repeated p least' most').Matches =
        (Pattern.repeated p least' most').Matches ∧
      (if least' = 0 ∧ most' = some 0 then .skip
        else if least' = 1 ∧ most' = some 1 then p else .repeated p least' most').Proper := by
    split
    · rename_i h
      obtain ⟨rfl, rfl⟩ := h
      exact ⟨(matches_repeated_zero p).symm, trivial⟩
    · split
      · rename_i h
        obtain ⟨rfl, rfl⟩ := h
        exact ⟨(matches_repeated_one p).symm, hp⟩
      · exact ⟨rfl, hp, hle'⟩
  unfold times
  by_cases hempty : p.most? = some 0
  · have hr (x y : Place) (h : p.Matches x y) : x = y := eq_of_most? hp hempty h
    have hmost : ((most.map (min 1 ·)).getD 1 = 0) ↔ most = some 0 := by
      cases most <;> simp
    have hle' : ∀ m, some ((most.map (min 1 ·)).getD 1) = some m → min least 1 ≤ m := by
      rintro m ⟨⟩
      cases most with
      | none => simp
      | some m =>
        have := hle m rfl
        simp
        omega
    obtain ⟨hmatches, hproper⟩ := hshort _ _ hle'
    simp only [hempty, if_true]
    refine ⟨hmatches.trans ?_, hproper⟩
    funext x y
    have hleast : min least 1 = 0 ↔ least = 0 := by omega
    have hsame := (exists_times_of_eq hr hle' (x := x) (y := y)).trans
      (or_congr (and_congr_left' hleast) (and_congr_left' (not_congr (Option.some_inj.trans hmost))))
    exact propext (hsame.trans (exists_times_of_eq hr hle).symm)
  · simpa [hempty] using hshort least most hle

/-! ### The ends of the text -/

/-- What is gone through at least once is gone through first and last. -/
theorem times_pos {r : Place → Place → Prop} {n : Nat} (hn : 0 < n) {x y : Place} (h : Times r n x y) :
    (∃ z, r x z) ∧ ∃ z, r z y := by
  obtain ⟨n, rfl⟩ := Nat.exists_eq_add_one_of_ne_zero (Nat.ne_of_gt hn)
  constructor
  · obtain ⟨z, hz, -⟩ := h
    exact ⟨z, hz⟩
  · rw [times_add, times_one] at h
    obtain ⟨z, -, hz⟩ := h
    exact ⟨z, hz⟩

/-- A pattern for the start of the text matches there only. -/
theorem before_of_isAtStart {p : Pattern} (hp : p.Proper) (hstart : p.isAtStart) {x y : Place}
    (h : p.Matches x y) : x.before = [] := by
  induction p generalizing x y with
  | check a =>
    obtain rfl : a = .textStart := by simpa [isAtStart] using hstart
    simpa [Assertion.holds] using h.1
  | seq p q ihp ihq =>
    obtain ⟨z, hpz, hqz⟩ := h
    obtain hstart | ⟨hmost, hstart⟩ : p.isAtStart ∨ p.most? = some 0 ∧ q.isAtStart := by
      simpa [isAtStart] using hstart
    · exact ihp hp.1 hstart hpz
    · obtain rfl := eq_of_most? hp.1 hmost hpz
      exact ihq hp.2 hstart hqz
  | either p q ihp ihq =>
    obtain ⟨hstartp, hstartq⟩ : p.isAtStart ∧ q.isAtStart := by simpa [isAtStart] using hstart
    exact h.elim (ihp hp.1 hstartp) (ihq hp.2 hstartq)
  | repeated p least most ih =>
    obtain ⟨hleast, hstart⟩ : 0 < least ∧ p.isAtStart := by simpa [isAtStart] using hstart
    obtain ⟨n, hn, -, h⟩ := h
    obtain ⟨⟨z, hz⟩, -⟩ := times_pos (Nat.lt_of_lt_of_le hleast hn) h
    exact ih hp.1 hstart hz
  | captured index p ih => exact ih hp hstart h
  | _ => cases hstart

/-- A pattern for the end of the text matches there only. -/
theorem after_of_isAtEnd {p : Pattern} (hp : p.Proper) (hend : p.isAtEnd) {x y : Place}
    (h : p.Matches x y) : y.after = [] := by
  induction p generalizing x y with
  | check a =>
    obtain rfl : a = .textEnd := by simpa [isAtEnd] using hend
    obtain ⟨hholds, rfl⟩ := h
    simpa [Assertion.holds] using hholds
  | seq p q ihp ihq =>
    obtain ⟨z, hpz, hqz⟩ := h
    obtain hend | ⟨hmost, hend⟩ : q.isAtEnd ∨ q.most? = some 0 ∧ p.isAtEnd := by
      simpa [isAtEnd] using hend
    · exact ihq hp.2 hend hqz
    · obtain rfl := eq_of_most? hp.2 hmost hqz
      exact ihp hp.1 hend hpz
  | either p q ihp ihq =>
    obtain ⟨hendp, hendq⟩ : p.isAtEnd ∧ q.isAtEnd := by simpa [isAtEnd] using hend
    exact h.elim (ihp hp.1 hendp) (ihq hp.2 hendq)
  | repeated p least most ih =>
    obtain ⟨hleast, hend⟩ : 0 < least ∧ p.isAtEnd := by simpa [isAtEnd] using hend
    obtain ⟨n, hn, -, h⟩ := h
    obtain ⟨-, z, hz⟩ := times_pos (Nat.lt_of_lt_of_le hleast hn) h
    exact ih hp.1 hend hz
  | captured index p ih => exact ih hp hend h
  | _ => cases hend

end ShaderFilter.Pattern
