import ShaderFilter.Directive.Reading
import ShaderFilter.Pattern.Meaning
import ShaderFilter.Proofs.Pattern.Combining

/-!
# What written patterns match

A written pattern says what it matches under the flags in effect (`Tree.Matches`): its parts one after the
other, each under the flags that those in front of it leave (`Tree.after`), and a set says which
characters it has (`SetTree.Has`). The case of letters is taken away from sets when they are closed, so the
set in a bracket is first completed and then turned over.

The pattern that a tree stands for matches the same (`Tree.pattern_spec`), by induction on the tree: a
set is put together from its items (`SetTree.onto_spec`), and the patterns of parts are combined. Ranges are
not empty and greatest numbers not below the least ones in the trees that are looked at (`Tree.Proper`).
-/

namespace ShaderFilter.Pattern

open Relation Place CharSet

/-! ### Sets -/

/-- A character is in a set or, where the flag says so, differs in its case from one that is. -/
def Mode.Folded (m : Mode) (has : Char → Prop) (c : Char) : Prop :=
  if m.anyCase then ∃ d, has d ∧ d.toLower = c.toLower else has c

/-- A character is in a set or, if the set is turned over, is not. -/
def Turned (negated : Bool) (has : Char → Prop) (c : Char) : Prop :=
  if negated then ¬ has c else has c

/-- The characters with a short name. None is known by a property. -/
def Shorthand.Has : Shorthand → Char → Prop
  | .letter 'd', c => '0' ≤ c ∧ c ≤ '9'
  | .letter 's', c => '\t' ≤ c ∧ c ≤ '\r' ∨ c = ' '
  | .letter _, c => '0' ≤ c ∧ c ≤ '9' ∨ 'A' ≤ c ∧ c ≤ 'Z' ∨ c = '_' ∨ 'a' ≤ c ∧ c ≤ 'z'
  | .property _, _ => False

/-- An operation between what is said of two sets. -/
def SetOperation.Holds : SetOperation → Prop → Prop → Prop
  | .inter, a, b => a ∧ b
  | .difference, a, b => a ∧ ¬ b
  | .symmetricDifference, a, b => ¬ (a ↔ b)

mutual

/-- A character is in a written set. -/
def SetTree.Has (m : Mode) : SetTree → Char → Prop
  | .empty _, _ => False
  | .literal l, c => c = l.char
  | .range first last, c => first.char ≤ c ∧ c ≤ last.char
  | .named negated s _, c => Turned negated (m.Folded fun d => s.contains d) c
  | .shorthand k _, c => k.Has c
  | .bracket negated inner _, c => Turned negated (m.Folded (SetTree.Has m inner)) c
  | .union items _, c => SetTree.AnyHas m items c
  | .combined op left right, c =>
    op.Holds (m.Folded (SetTree.Has m left) c) (m.Folded (SetTree.Has m right) c)

/-- A character is in one of some written sets. -/
def SetTree.AnyHas (m : Mode) : List SetTree → Char → Prop
  | [], _ => False
  | t :: ts, c => SetTree.Has m t c ∨ SetTree.AnyHas m ts c

end

/-- The ranges of a written set are not empty, and its named sets have ascending ranges. -/
inductive SetTree.Proper : SetTree → Prop where
  /-- Nothing. -/
  | empty (span : Span) : Proper (.empty span)
  /-- A character. -/
  | literal (l : Literal) : Proper (.literal l)
  /-- A range from a character to one that is not before it. -/
  | range {first last : Literal} : first.char ≤ last.char → Proper (.range first last)
  /-- A set with a name. -/
  | named {s : CharSet} (negated : Bool) (span : Span) : Ascending s.ranges →
      Proper (.named negated s span)
  /-- The short name of a class. -/
  | shorthand (k : Shorthand) (span : Span) : Proper (.shorthand k span)
  /-- A set in brackets. -/
  | bracket {inner : SetTree} (negated : Bool) (span : Span) : Proper inner →
      Proper (.bracket negated inner span)
  /-- Items side by side. -/
  | union {items : List SetTree} (span : Span) : (∀ t ∈ items, Proper t) → Proper (.union items span)
  /-- An operation between two sets. -/
  | combined {left right : SetTree} (op : SetOperation) : Proper left → Proper right →
      Proper (.combined op left right)

variable {m : Mode} {span : Span} {s s' : CaseSet}

theorem completed_spec (hs : s.Noted) (h : completed m span s = .ok s') :
    s'.Noted ∧ ∀ c, s'.chars.contains c ↔ m.Folded (fun d => s.chars.contains d) c := by
  rw [completed] at h
  split at h
  · rename_i hcase
    cases h
    have hcase : m.anyCase = false := by simpa using hcase
    exact ⟨hs, fun c => by simp [Mode.Folded, hcase]⟩
  · rename_i hcase
    have hcase : m.anyCase = true := by simpa using hcase
    split at h
    · rename_i hcomplete
      cases h
      exact ⟨hs.complete? hcomplete, fun c => by
        simp [Mode.Folded, hcase, CaseSet.contains_complete? hs hcomplete]⟩
    · cases h

theorem closed_spec {negated : Bool} (hs : s.Noted) (h : closed m negated span s = .ok s') :
    s'.Noted ∧ ∀ c, s'.chars.contains c ↔ Turned negated (m.Folded fun d => s.chars.contains d) c := by
  obtain ⟨t, ht, h⟩ := bind_eq_ok.1 h
  obtain ⟨hnoted, hcontains⟩ := completed_spec hs ht
  cases negated with
  | false =>
    cases h
    exact ⟨hnoted, hcontains⟩
  | true =>
    simp only [Bool.not_true, Bool.false_eq_true, if_false] at h
    split at h
    · cases h
    · cases h
      refine ⟨hnoted.complement, fun c => ?_⟩
      simp only [Turned, if_true, ← hcontains]
      simp [CaseSet.complement, contains_complement hnoted.ascending]

/-- The set of a short name has the characters with that name. -/
theorem Shorthand.set_spec {k : Shorthand} {u : CharSet} (h : k.set m span = .ok u) :
    Ascending u.ranges ∧ ∀ c, u.contains c ↔ k.Has c := by
  cases k with
  | property name => cases h
  | letter c =>
    rw [Shorthand.set] at h
    split at h
    · cases h
    · split at h
      · cases h
      · rename_i hupper
        cases h
        have hlower : c.toLower = c := by
          rw [← Char.toNat_inj, toNat_toLower, if_neg]
          intro hrange
          exact hupper (decide_eq_true hrange)
        rw [classSet, hlower]
        split
        · exact ⟨ascending_range (by decide), fun d => by simp [digits, contains_range, Shorthand.Has]⟩
        · exact ⟨ascending_ofRanges (by decide), fun d => by
            simp [spaces, contains_ofRanges, Shorthand.Has, le_and_le_iff]⟩
        · exact ⟨ascending_ofRanges (by decide), fun d => by
            simp [wordChars, contains_ofRanges, Shorthand.Has, le_and_le_iff]⟩

theorem Literal.member_eq_ok {l : Literal} {c : Char} (h : l.member m = .ok c) : c = l.char := by
  rw [Literal.member] at h
  split at h
  · cases h
    rfl
  · cases h

theorem SetOperation.apply_spec (op : SetOperation) (hs : s.Noted) (hs' : s'.Noted) :
    (op.apply s s').Noted ∧ ∀ c, (op.apply s s').chars.contains c ↔
      op.Holds (s.chars.contains c) (s'.chars.contains c) := by
  cases op with
  | inter => exact ⟨hs.inter hs', fun c => by simp [apply, Holds, CaseSet.contains_inter hs hs']⟩
  | difference =>
    exact ⟨hs.difference hs', fun c => by simp [apply, Holds, CaseSet.contains_difference hs hs']⟩
  | symmetricDifference =>
    refine ⟨hs.symmetricDifference hs', fun c => ?_⟩
    rw [apply, CaseSet.contains_symmetricDifference hs hs', bne_iff_ne, Holds, ne_eq, Bool.eq_iff_iff]

/-- A set that was empty before has the characters of what was put into it. -/
theorem SetTree.has_of_empty {t : SetTree}
    (h : ∀ c, s.chars.contains c ↔ CaseSet.empty.chars.contains c ∨ t.Has m c) :
    (fun c => s.chars.contains c = true) = t.Has m := by
  funext c
  have hempty : CaseSet.empty.chars.contains c = false := rfl
  rw [h c, hempty]
  simp

/-- Items side by side are put into a set one after the other. -/
theorem SetTree.allOnto_spec {items : List SetTree}
    (hitems : ∀ t ∈ items, ∀ {s s' : CaseSet}, s.Noted → t.onto m s = .ok s' →
      s'.Noted ∧ ∀ c, s'.chars.contains c ↔ s.chars.contains c ∨ t.Has m c)
    (hs : s.Noted) (h : SetTree.allOnto m s items = .ok s') :
    s'.Noted ∧ ∀ c, s'.chars.contains c ↔ s.chars.contains c ∨ SetTree.AnyHas m items c := by
  induction items generalizing s with
  | nil =>
    cases h
    exact ⟨hs, fun c => by simp [AnyHas]⟩
  | cons t items ih =>
    obtain ⟨ht, hitems⟩ := List.forall_mem_cons.1 hitems
    obtain ⟨s₁, hs₁, h⟩ := bind_eq_ok.1 h
    obtain ⟨hnoted₁, hcontains₁⟩ := ht hs hs₁
    obtain ⟨hnoted, hcontains⟩ := ih hitems hnoted₁ h
    refine ⟨hnoted, fun c => ?_⟩
    rw [hcontains, hcontains₁, AnyHas, or_assoc]

/-- **A set is put together from the characters that its items have.** -/
theorem SetTree.onto_spec {t : SetTree} (ht : t.Proper) (hs : s.Noted) (h : t.onto m s = .ok s') :
    s'.Noted ∧ ∀ c, s'.chars.contains c ↔ s.chars.contains c ∨ t.Has m c := by
  induction ht generalizing s s' with
  | empty span =>
    cases h
    exact ⟨hs, fun c => by simp [Has]⟩
  | literal l =>
    obtain ⟨d, hd, h⟩ := bind_eq_ok.1 h
    cases h
    have hchar := l.member_eq_ok hd
    subst hchar
    refine ⟨hs.add (ascending_range (Char.le_refl l.char)), fun c => ?_⟩
    rw [CaseSet.add, CharSet.contains_union, Bool.or_eq_true, contains_single, Has]
  | @range first last hle =>
    obtain ⟨a, ha, h⟩ := bind_eq_ok.1 h
    obtain ⟨b, hb, h⟩ := bind_eq_ok.1 h
    cases h
    have hfirst := first.member_eq_ok ha
    have hlast := last.member_eq_ok hb
    subst hfirst hlast
    refine ⟨hs.add (ascending_range hle), fun c => ?_⟩
    simp [CaseSet.add, CharSet.contains_union, contains_range, Has]
  | @named u negated span hranges =>
    obtain ⟨s₁, hs₁, h⟩ := bind_eq_ok.1 h
    cases h
    have hnoted : CaseSet.Noted ⟨u, false⟩ := ⟨hranges, nofun⟩
    obtain ⟨hnoted, hcontains⟩ := closed_spec hnoted hs₁
    refine ⟨hs.union hnoted, fun c => ?_⟩
    rw [CaseSet.contains_union, Bool.or_eq_true, hcontains, Has]
  | shorthand k span =>
    obtain ⟨u, hu, h⟩ := bind_eq_ok.1 h
    cases h
    obtain ⟨hranges, hcontains⟩ := Shorthand.set_spec hu
    refine ⟨hs.union ⟨hranges, nofun⟩, fun c => ?_⟩
    rw [CaseSet.contains_union, Bool.or_eq_true, hcontains, Has]
  | @bracket inner negated span hinner ih =>
    obtain ⟨s₁, hs₁, h⟩ := bind_eq_ok.1 h
    obtain ⟨s₂, hs₂, h⟩ := bind_eq_ok.1 h
    cases h
    obtain ⟨hnoted₁, hcontains₁⟩ := ih CaseSet.noted_empty hs₁
    obtain ⟨hnoted, hcontains⟩ := closed_spec hnoted₁ hs₂
    refine ⟨hs.union hnoted, fun c => ?_⟩
    rw [CaseSet.contains_union, Bool.or_eq_true, hcontains, has_of_empty hcontains₁, Has]
  | union span hitems ih => exact SetTree.allOnto_spec ih hs h
  | @combined left right op hl hr ihl ihr =>
    obtain ⟨a, ha, h⟩ := bind_eq_ok.1 h
    obtain ⟨b, hb, h⟩ := bind_eq_ok.1 h
    obtain ⟨b', hb', h⟩ := bind_eq_ok.1 h
    obtain ⟨a', ha', h⟩ := bind_eq_ok.1 h
    cases h
    obtain ⟨hnoteda, hcontainsa⟩ := ihl CaseSet.noted_empty ha
    obtain ⟨hnotedb, hcontainsb⟩ := ihr CaseSet.noted_empty hb
    obtain ⟨hnoteda', hcontainsa'⟩ := completed_spec hnoteda ha'
    obtain ⟨hnotedb', hcontainsb'⟩ := completed_spec hnotedb hb'
    obtain ⟨hnoted, hcontains⟩ := op.apply_spec hnoteda' hnotedb'
    refine ⟨hs.union hnoted, fun c => ?_⟩
    rw [CaseSet.contains_union, Bool.or_eq_true, hcontains, hcontainsa', hcontainsb',
      has_of_empty hcontainsa, has_of_empty hcontainsb, Has]

/-! ### Patterns -/

mutual

/-- The flags in effect behind a written pattern. -/
def Tree.after : Tree → Mode → Mode
  | .flags items, m => m.setAll true items
  | .repeated t _ _ _, m => Tree.after t m
  | .sequence parts _, m | .choice parts _, m => Tree.afterAll parts m
  | _, m => m

/-- The flags in effect behind some written patterns. -/
def Tree.afterAll : List Tree → Mode → Mode
  | [], m => m
  | t :: ts, m => Tree.afterAll ts (Tree.after t m)

end

mutual

/-- A written pattern matches what lies between two places. -/
def Tree.Matches : Tree → Mode → Place → Place → Prop
  | .empty, _ | .flags _, _ => Eq
  | .literal l, m => fun x y => ∃ c, m.Folded (· = l.char) c ∧ Over [c] x y
  | .dot _, m => fun x y => ∃ c, (m.dotAll ∨ c ≠ '\n' ∧ (m.crlf → c ≠ '\r')) ∧ Over [c] x y
  | .mark k, m => fun x y => (k.assertion m).holds x.before.getLast? x.after.head? ∧ x = y
  | .shorthand k _, _ => fun x y => ∃ c, k.Has c ∧ Over [c] x y
  | .set s, m => fun x y => ∃ c, s.Has m c ∧ Over [c] x y
  | .repeated t least most _, m => fun x y =>
    ∃ n, least ≤ n ∧ (∀ k, most = some k → n ≤ k) ∧ Times (Tree.Matches t m) n x y
  | .captured _ t _, m => Tree.Matches t m
  | .group items t _, m => Tree.Matches t (m.setAll true items)
  | .sequence parts _, m => Tree.MatchInTurn parts m
  | .choice parts _, m => Tree.AnyMatches parts m

/-- Some written patterns match what lies between two places, one after the other. -/
def Tree.MatchInTurn : List Tree → Mode → Place → Place → Prop
  | [], _ => Eq
  | t :: ts, m => Comp (Tree.Matches t m) (Tree.MatchInTurn ts (t.after m))

/-- One of some written patterns matches what lies between two places. -/
def Tree.AnyMatches : List Tree → Mode → Place → Place → Prop
  | [], _ => fun _ _ => False
  | t :: ts, m => fun x y => Tree.Matches t m x y ∨ Tree.AnyMatches ts (t.after m) x y

end

/-- The sets of a written pattern are proper, and no greatest number of times is below the least one. -/
inductive Tree.Proper : Tree → Prop where
  /-- Nothing. -/
  | empty : Proper .empty
  /-- Flags. -/
  | flags (items : List (Option Flag)) : Proper (.flags items)
  /-- A character. -/
  | literal (l : Literal) : Proper (.literal l)
  /-- A dot. -/
  | dot (span : Span) : Proper (.dot span)
  /-- A mark. -/
  | mark (k : Mark) : Proper (.mark k)
  /-- The short name of a class. -/
  | shorthand (k : Shorthand) (span : Span) : Proper (.shorthand k span)
  /-- A set in brackets. -/
  | set {s : SetTree} : s.Proper → Proper (.set s)
  /-- A part some number of times. -/
  | repeated {t : Tree} {least : Nat} {most : Option Nat} (span : Span) : Proper t →
      (∀ k, most = some k → least ≤ k) → Proper (.repeated t least most span)
  /-- A group whose place in the text has a number. -/
  | captured {t : Tree} (index : Nat) (span : Span) : Proper t → Proper (.captured index t span)
  /-- A group with flags of its own. -/
  | group {t : Tree} (items : List (Option Flag)) (span : Span) : Proper t → Proper (.group items t span)
  /-- Parts side by side. -/
  | sequence {parts : List Tree} (span : Span) : (∀ t ∈ parts, Proper t) → Proper (.sequence parts span)
  /-- Alternatives. -/
  | choice {parts : List Tree} (span : Span) : (∀ t ∈ parts, Proper t) → Proper (.choice parts span)

variable {m' : Mode} {p : Pattern}

theorem run_bind_eq_ok {α β : Type} {x : Meaning α} {f : α → Meaning β} {b : β} :
    (x >>= f).run m = .ok (b, m') ↔ ∃ a m₁, x.run m = .ok (a, m₁) ∧ (f a).run m₁ = .ok (b, m') := by
  rw [StateT.run_bind, bind_eq_ok]
  exact ⟨fun ⟨⟨a, m₁⟩, h, h'⟩ => ⟨a, m₁, h, h'⟩, fun ⟨a, m₁, h, h'⟩ => ⟨(a, m₁), h, h'⟩⟩

theorem run_lift_eq_ok {α : Type} {x : Except Mistake α} {a : α} :
    (liftM x : Meaning α).run m = .ok (a, m') ↔ x = .ok a ∧ m' = m := by
  cases x <;> simp [eq_comm]

/-- The pattern of a set matches one of its characters. -/
theorem matches_ofSet_iff {u : CharSet} {has : Char → Prop} (hu : Ascending u.ranges)
    (h : ∀ c, u.contains c ↔ has c) : (ofSet u).Matches = fun x y => ∃ c, has c ∧ Over [c] x y := by
  rw [matches_ofSet hu]
  funext x y
  simp [Pattern.Matches, h]

theorem Literal.pattern_spec {l : Literal} (h : l.pattern m = .ok p) :
    p.Proper ∧ p.Matches = fun x y => ∃ c, m.Folded (· = l.char) c ∧ Over [c] x y := by
  rw [Literal.pattern] at h
  split at h
  · cases h
  · split at h
    · rename_i hcase
      have hcase : m.anyCase = false := by simpa using hcase
      cases h
      refine ⟨trivial, ?_⟩
      funext x y
      simp [Pattern.Matches, Mode.Folded, hcase]
    · rename_i hcase
      have hcase : m.anyCase = true := by simpa using hcase
      split at h
      · cases h
      · cases h
        have hsingle : Ascending (single l.char).ranges := ascending_range (Char.le_refl l.char)
        refine ⟨proper_ofSet (ascending_anyCase hsingle),
          matches_ofSet_iff (ascending_anyCase hsingle) fun c => ?_⟩
        simp [Mode.Folded, hcase, contains_anyCase hsingle, contains_single]

theorem dotPattern_spec (h : dotPattern m span = .ok p) :
    p.Proper ∧ p.Matches =
      fun x y => ∃ c, (m.dotAll ∨ c ≠ '\n' ∧ (m.crlf → c ≠ '\r')) ∧ Over [c] x y := by
  have hcomplement {u : CharSet} {has : Char → Prop} (hu : Ascending u.ranges)
      (hhas : ∀ c, ¬ u.contains c ↔ has c) : (ofSet u.complement).Proper ∧
        (ofSet u.complement).Matches = fun x y => ∃ c, has c ∧ Over [c] x y :=
    ⟨proper_ofSet (ascending_complement hu), matches_ofSet_iff (ascending_complement hu) fun c => by
      rw [contains_complement hu, ← hhas, Bool.not_eq_true', Bool.not_eq_true]⟩
  rw [dotPattern] at h
  split at h
  · cases h
  · split at h
    · rename_i hall
      cases h
      exact hcomplement ascending_empty fun c => by
        simp [hall, CharSet.contains, CharSet.empty, Text.inRanges]
    · rename_i hall
      cases h
      refine hcomplement (ascending_ofRanges ?_) fun c => ?_
      · cases m.crlf <;> decide
      · rw [contains_ofRanges]
        cases hcrlf : m.crlf with
        | false =>
          simp only [Bool.false_eq_true, if_false, List.mem_singleton, exists_eq_left, le_and_le_iff, hall,
            false_or, false_imp_iff, and_true, ne_eq]
        | true =>
          simp only [if_true, List.mem_cons, List.not_mem_nil, or_false, exists_eq_or_imp, exists_eq_left,
            le_and_le_iff, not_or, hall, false_or, forall_const, ne_eq, Bool.false_eq_true]

/-- Patterns of parts match one after the other, or one of them, as the parts do. -/
theorem Tree.patterns_spec {parts : List Tree}
    (hparts : ∀ t ∈ parts, ∀ {m m' : Mode} {p : Pattern}, t.pattern.run m = .ok (p, m') →
      m' = t.after m ∧ p.Proper ∧ p.Matches = t.Matches m)
    {ps : List Pattern} (h : (Tree.patterns parts).run m = .ok (ps, m')) :
    m' = Tree.afterAll parts m ∧ (∀ p ∈ ps, p.Proper) ∧
      InTurn ps = Tree.MatchInTurn parts m ∧ AnyOf ps = Tree.AnyMatches parts m := by
  induction parts generalizing m ps with
  | nil =>
    cases h
    refine ⟨rfl, nofun, rfl, ?_⟩
    funext x y
    simp [AnyOf, AnyMatches]
  | cons t parts ih =>
    obtain ⟨ht, hparts⟩ := List.forall_mem_cons.1 hparts
    obtain ⟨p, m₁, hp, h⟩ := run_bind_eq_ok.1 h
    obtain ⟨qs, m₂, hqs, h⟩ := run_bind_eq_ok.1 h
    cases h
    obtain ⟨rfl, hproper, hmatches⟩ := ht hp
    obtain ⟨hafter, hpropers, hturn, hany⟩ := ih hparts hqs
    refine ⟨hafter, List.forall_mem_cons.2 ⟨hproper, hpropers⟩, ?_, ?_⟩
    · rw [InTurn, List.foldr_cons, ← InTurn, hturn, hmatches, MatchInTurn]
    · rw [anyOf_cons, hany, hmatches, AnyMatches]

/-- **A pattern matches what its tree says**, and is proper. -/
theorem Tree.pattern_spec {t : Tree} (ht : t.Proper) (h : t.pattern.run m = .ok (p, m')) :
    m' = t.after m ∧ p.Proper ∧ p.Matches = t.Matches m := by
  induction ht generalizing m m' p with
  | empty =>
    cases h
    exact ⟨rfl, trivial, rfl⟩
  | flags items =>
    cases h
    exact ⟨rfl, trivial, rfl⟩
  | literal l =>
    obtain ⟨_, _, hget, h⟩ := run_bind_eq_ok.1 h
    cases hget
    obtain ⟨h, rfl⟩ := run_lift_eq_ok.1 h
    exact ⟨rfl, l.pattern_spec h⟩
  | dot span =>
    obtain ⟨_, _, hget, h⟩ := run_bind_eq_ok.1 h
    cases hget
    obtain ⟨h, rfl⟩ := run_lift_eq_ok.1 h
    exact ⟨rfl, dotPattern_spec h⟩
  | mark k =>
    cases h
    exact ⟨rfl, trivial, rfl⟩
  | shorthand k span =>
    obtain ⟨_, _, hget, h⟩ := run_bind_eq_ok.1 h
    cases hget
    obtain ⟨u, _, hu, h⟩ := run_bind_eq_ok.1 h
    cases h
    obtain ⟨hu, rfl⟩ := run_lift_eq_ok.1 hu
    obtain ⟨hranges, hcontains⟩ := Shorthand.set_spec hu
    exact ⟨rfl, proper_ofSet hranges, matches_ofSet_iff hranges hcontains⟩
  | @set s hs =>
    obtain ⟨_, _, hget, h⟩ := run_bind_eq_ok.1 h
    cases hget
    obtain ⟨u, _, hu, h⟩ := run_bind_eq_ok.1 h
    cases h
    obtain ⟨hu, rfl⟩ := run_lift_eq_ok.1 hu
    obtain ⟨hnoted, hcontains⟩ := SetTree.onto_spec hs CaseSet.noted_empty hu
    have hhas := SetTree.has_of_empty hcontains
    exact ⟨rfl, proper_ofSet hnoted.ascending,
      matches_ofSet_iff hnoted.ascending fun c => (congrFun hhas c).to_iff⟩
  | @repeated t least most span ht hle ih =>
    obtain ⟨q, _, hq, h⟩ := run_bind_eq_ok.1 h
    cases h
    obtain ⟨rfl, hproper, hmatches⟩ := ih hq
    obtain ⟨htimes, hproper⟩ := matches_times hproper hle
    refine ⟨rfl, hproper, ?_⟩
    have hmax : ∀ n, (∀ k, most = some k → n ≤ max least k) ↔ ∀ k, most = some k → n ≤ k := fun n =>
      forall_congr' fun k => forall_congr' fun hk => by rw [max_eq_right (hle k hk)]
    rw [htimes]
    funext x y
    simp only [Pattern.Matches, Tree.Matches, hmatches, hmax]
  | captured index span ht ih =>
    obtain ⟨_, _, hget, h⟩ := run_bind_eq_ok.1 h
    cases hget
    obtain ⟨q, _, hq, h⟩ := run_bind_eq_ok.1 h
    obtain ⟨_, _, hset, h⟩ := run_bind_eq_ok.1 h
    cases hset
    cases h
    obtain ⟨-, hproper, hmatches⟩ := ih hq
    exact ⟨rfl, hproper, hmatches⟩
  | group items span ht ih =>
    obtain ⟨_, _, hget, h⟩ := run_bind_eq_ok.1 h
    cases hget
    obtain ⟨_, _, hflags, h⟩ := run_bind_eq_ok.1 h
    cases hflags
    obtain ⟨q, _, hq, h⟩ := run_bind_eq_ok.1 h
    obtain ⟨_, _, hset, h⟩ := run_bind_eq_ok.1 h
    cases hset
    cases h
    obtain ⟨-, hproper, hmatches⟩ := ih hq
    exact ⟨rfl, hproper, hmatches⟩
  | sequence span hparts ih =>
    obtain ⟨ps, _, hps, h⟩ := run_bind_eq_ok.1 h
    cases h
    obtain ⟨rfl, hpropers, hturn, -⟩ := Tree.patterns_spec ih hps
    exact ⟨rfl, proper_sequence hpropers, (matches_sequence ps).trans hturn⟩
  | choice span hparts ih =>
    obtain ⟨ps, _, hps, h⟩ := run_bind_eq_ok.1 h
    cases h
    obtain ⟨rfl, hpropers, -, hany⟩ := Tree.patterns_spec ih hps
    obtain ⟨hmatches, hproper⟩ := matches_choice hpropers
    exact ⟨rfl, hproper, hmatches.trans hany⟩

end ShaderFilter.Pattern
