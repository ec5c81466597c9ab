import ShaderFilter.Proofs.Source

/-!
# Source lines and directives

A script mixes two texts: the lines of the shader source, and the directives. Neither interferes
with the other.

All of a definition but its source is decided by the directives alone. Definitions that agree in
all but their sources (`Definition.Alike`) read a directive alike, and a line of the source
changes nothing else; so a script and its directives by themselves pass through definitions that
are alike, and are refused at the same directive (`reaches_directives`, `exists_directiveAt`).
Scripts with the same directives are compared through these.

The source in turn is decided by the other lines, and by where the directives stand.
-/

namespace ShaderFilter

namespace Definition

/-- Two definitions agree in everything but their sources. -/
structure Alike (d e : Definition) : Prop where
  /-- The titles. -/
  name : d.name = e.name
  /-- The descriptions. -/
  description : d.description = e.description
  /-- Whether they are separable. -/
  separable : d.separable = e.separable
  /-- Whether one invocation is enough. -/
  singleInvocation : d.singleInvocation = e.singleInvocation
  /-- The parameters, with all actions. -/
  parameters : d.parameters = e.parameters
  /-- The textures. -/
  textures : d.textures = e.textures

namespace Alike

variable {d e : Definition}

theorem refl (d : Definition) : d.Alike d := ⟨rfl, rfl, rfl, rfl, rfl, rfl⟩

theorem symm (h : d.Alike e) : e.Alike d :=
  ⟨h.name.symm, h.description.symm, h.separable.symm, h.singleInvocation.symm,
    h.parameters.symm, h.textures.symm⟩

theorem trans {f : Definition} (h : d.Alike e) (h' : e.Alike f) : d.Alike f :=
  ⟨h.name.trans h'.name, h.description.trans h'.description, h.separable.trans h'.separable,
    h.singleInvocation.trans h'.singleInvocation, h.parameters.trans h'.parameters,
    h.textures.trans h'.textures⟩

/-- A definition that is alike is the same with another source. -/
theorem eq (h : d.Alike e) : e = { d with source := e.source } := by
  obtain ⟨hname, hdescription, hseparable, hsingle, hparameters, htextures⟩ := h
  cases d
  cases e
  simp_all

theorem addLine (d : Definition) (line : String) : d.Alike (d.addLine line) :=
  ⟨rfl, rfl, rfl, rfl, rfl, rfl⟩

/-- Reading a directive looks at no source. -/
theorem read (h : d.Alike e) (directive : Directive) (args : String) :
    e.read directive args = d.read directive args := by
  rw [h.eq]
  cases directive <;> rfl

/-- A change of definitions that are alike leaves them alike. -/
theorem change (h : d.Alike e) (c : Change) : (d.change c).Alike (e.change c) := by
  rw [h.eq]
  cases c with
  | set s => cases s <;> exact ⟨rfl, rfl, rfl, rfl, rfl, rfl⟩
  | _ => exact ⟨rfl, rfl, rfl, rfl, rfl, rfl⟩

/-- A directive that is accepted is accepted by a definition that is alike, -/
theorem step_ok {d' : Definition} {line : String} (h : d.Alike e)
    (hline : Directive.isDirective line) (hl : (d.step line).result = .ok d') :
    ∃ e', (e.step line).result = .ok e' ∧ d'.Alike e' := by
  obtain ⟨c, hs, rfl⟩ := (result_step_directive hline).1 hl
  obtain ⟨directive, args, hc, hread⟩ := says_iff.1 hs
  have hs' : e.Says line c := says_iff.2 ⟨directive, args, hc, (h.read directive args).trans hread⟩
  have hchange : ((d.change c).addLine "").Alike ((e.change c).addLine "") :=
    ((addLine _ _).symm.trans (h.change c)).trans (addLine _ _)
  exact ⟨_, (result_step_directive hline).2 ⟨c, hs', rfl⟩, hchange⟩

/-- and one that is refused is refused for the same reason. -/
theorem step_error {line : String} {c : DirectiveError} (h : d.Alike e)
    (hl : (d.step line).result = .error c) : (e.step line).result = .error c := by
  obtain ⟨directive, args, hc, hread⟩ := result_step_eq_error.1 hl
  exact result_step_eq_error.2 ⟨directive, args, hc, (h.read directive args).trans hread⟩

end Alike

end Definition

namespace Script

open Directive (isDirective)

/-- The directives of a script, in their order. -/
def directives (lines : List String) : List String := lines.filter isDirective

/-- The lines of a script that are not directives, in their order. -/
def sourceLines (lines : List String) : List String := lines.filter (! isDirective ·)

/-- Directive number `j` of a script stands on line number `n`, both counted from one. -/
def DirectiveAt (lines : List String) (j n : Nat) : Prop :=
  ∃ before line after, lines = before ++ line :: after ∧ isDirective line ∧
    j = (directives before).length + 1 ∧ n = before.length + 1

/-! ### The directives decide -/

theorem directives_append (as bs : List String) :
    directives (as ++ bs) = directives as ++ directives bs := List.filter_append _ _

theorem directives_singleton {line : String} (h : isDirective line) : directives [line] = [line] :=
  List.filter_cons_of_pos h

/-- A script that is not refused leads where its directives lead by themselves, but for the
source. -/
theorem reaches_directives {d d' e : Definition} {lines : List String} (h : Reaches d lines d')
    (he : d.Alike e) : ∃ e', Reaches e (directives lines) e' ∧ d'.Alike e' := by
  induction h with
  | nil => exact ⟨e, .nil, he⟩
  | @snoc lines line f f' _ hl ih =>
    obtain ⟨e', hreach, hf⟩ := ih
    rw [directives_append]
    by_cases hline : isDirective line
    · obtain ⟨e'', hstep, hf'⟩ := hf.step_ok hline hl
      rw [directives_singleton hline]
      exact ⟨e'', hreach.snoc hstep, hf'⟩
    · have hnone : directives [line] = [] := List.filter_cons_of_neg hline
      rw [hnone, List.append_nil, (Definition.result_step_source hline).1 hl]
      exact ⟨e', hreach, (Definition.Alike.addLine f line).symm.trans hf⟩

/-- A script that is refused is refused at the directive at which its directives are refused by
themselves. -/
theorem exists_directiveAt {name text : String} {n : Nat} {c : DirectiveError}
    (h : (parse name text).result = .error ⟨n, c⟩) :
    ∃ j, DirectiveAt (Text.lines text) j n ∧
      (parseLines name (directives (Text.lines text))).result = .error ⟨j, c⟩ := by
  obtain ⟨before, line, after, d, hlines, rfl, hd, hc⟩ := result_parse_eq_error.1 h
  have hline : isDirective line := by
    obtain ⟨directive, args, hclass, -⟩ := Definition.result_step_eq_error.1 hc
    simp [isDirective, hclass]
  obtain ⟨e, hreach, he⟩ := reaches_directives hd (.refl _)
  refine ⟨(directives before).length + 1, ⟨before, line, after, hlines, hline, rfl, rfl⟩, ?_⟩
  rw [result_parseLines, result_run_eq_error]
  refine ⟨directives before, line, directives after, e, ?_, Nat.add_comm _ _, hreach,
    he.step_error hc⟩
  rw [hlines, directives_append, ← List.singleton_append, directives_append,
    directives_singleton hline, List.singleton_append]

/-- A script that parses has the definition of its directives, but for the source. -/
theorem exists_alike {name text : String} {d : Definition}
    (h : (parse name text).result = .ok d) :
    ∃ e, (parseLines name (directives (Text.lines text))).result = .ok e ∧ d.Alike e := by
  obtain ⟨e, hreach, he⟩ := reaches_directives (result_parse_eq_ok.1 h) (.refl _)
  exact ⟨e, (result_parseLines _ _).trans (result_run_eq_ok.2 hreach), he⟩

/-! ### The other lines and the places of the directives decide the source -/

theorem map_shown_eq {as bs : List String} (hplaces : as.map isDirective = bs.map isDirective)
    (hlines : sourceLines as = sourceLines bs) :
    as.map Directive.shown = bs.map Directive.shown := by
  induction as generalizing bs with
  | nil =>
    cases bs with
    | nil => rfl
    | cons b bs => cases hplaces
  | cons a as ih =>
    cases bs with
    | nil => cases hplaces
    | cons b bs =>
      obtain ⟨hab, hplaces⟩ := List.cons.inj hplaces
      by_cases ha : isDirective a
      · have hb : isDirective b := hab ▸ ha
        have hshown {l : String} (h : isDirective l) : Directive.shown l = "" :=
          if_neg fun hc => by simp [isDirective, hc] at h
        simp only [sourceLines, List.filter_cons, ha, hb, Bool.not_true] at hlines
        rw [List.map_cons, List.map_cons, hshown ha, hshown hb, ih hplaces hlines]
      · have hb : ¬ isDirective b := hab ▸ ha
        simp only [sourceLines, List.filter_cons, ha, hb, Bool.not_false, if_true,
          List.cons.injEq] at hlines
        obtain ⟨heq, hlines⟩ := hlines
        rw [List.map_cons, List.map_cons, heq, ih hplaces hlines]

/-- **Source lines and directives do not interfere.** Scripts with the same directives, whatever
lines of the source stand between them, have definitions that agree in all but their sources, or
are both refused for the same reason at the same directive, each at the line where this directive
stands in it. Scripts with the same other lines and with directives at the same places have the
same source, whatever the directives say. -/
theorem source_lines_and_directives_independent :
    (∀ name a b, directives (Text.lines a) = directives (Text.lines b) →
      (∃ d e, (parse name a).result = .ok d ∧ (parse name b).result = .ok e ∧ d.Alike e) ∨
      ∃ c j m n, (parse name a).result = .error ⟨m, c⟩ ∧ (parse name b).result = .error ⟨n, c⟩ ∧
        DirectiveAt (Text.lines a) j m ∧ DirectiveAt (Text.lines b) j n) ∧
    ∀ name name' a b d e, (parse name a).result = .ok d → (parse name' b).result = .ok e →
      (Text.lines a).map isDirective = (Text.lines b).map isDirective →
      sourceLines (Text.lines a) = sourceLines (Text.lines b) → d.source = e.source := by
  constructor
  · intro name a b hab
    -- What the directives do by themselves is the same for both scripts.
    cases ha : (parse name a).result with
    | ok d =>
      obtain ⟨da, hda, hd⟩ := exists_alike ha
      cases hb : (parse name b).result with
      | ok e =>
        obtain ⟨db, hdb, he⟩ := exists_alike hb
        rw [hab, hdb] at hda
        cases hda
        exact .inl ⟨d, e, rfl, rfl, hd.trans he.symm⟩
      | error e =>
        obtain ⟨j, -, hj⟩ := exists_directiveAt hb
        rw [hab, hj] at hda
        cases hda
    | error c =>
      obtain ⟨m, c⟩ := c
      obtain ⟨j, hm, hj⟩ := exists_directiveAt ha
      cases hb : (parse name b).result with
      | ok e =>
        obtain ⟨db, hdb, -⟩ := exists_alike hb
        rw [hab, hdb] at hj
        cases hj
      | error c' =>
        obtain ⟨n, c'⟩ := c'
        obtain ⟨j', hn, hj'⟩ := exists_directiveAt hb
        rw [hab, hj'] at hj
        cases hj
        exact .inr ⟨_, j, m, n, rfl, rfl, hm, hn⟩
  · intro name name' a b d e hd he hplaces hlines
    have hshown := congrArg (List.map (· ++ "\n")) (map_shown_eq hplaces hlines)
    rw [List.map_map, List.map_map] at hshown
    rw [source_of_parse hd, source_of_parse he]
    exact congrArg String.join hshown

/-- One binding twice, with other lines around the directives: it is refused on line 3 of one script
and on line 2 of the other. Two scripts of which only the directives differ have one source. -/
theorem source_lines_and_directives_independent_moved :
    (∃ j n, (parse "f" "#texture t,1\n#texture u,1\nc").result =
        .error ⟨n, .duplicateBinding ⟨1, by decide, by decide⟩⟩ ∧
      DirectiveAt ["#texture t,1", "a", "#texture u,1"] j 3 ∧
      DirectiveAt ["#texture t,1", "#texture u,1", "c"] j n) ∧
    ∃ d e, (parse "f" "#texture t,1\na").result = .ok d ∧
      (parse "g" "#setting title,b\na").result = .ok e ∧ d.source = e.source := by
  have hsame : directives (Text.lines "#texture t,1\na\n#texture u,1") =
      directives (Text.lines "#texture t,1\n#texture u,1\nc") := by decide +kernel
  have ha : (parse "f" "#texture t,1\na\n#texture u,1").result =
      .error ⟨3, .duplicateBinding ⟨1, by decide, by decide⟩⟩ := by decide +kernel
  have hla : Text.lines "#texture t,1\na\n#texture u,1" =
      ["#texture t,1", "a", "#texture u,1"] := by decide +kernel
  have hlb : Text.lines "#texture t,1\n#texture u,1\nc" =
      ["#texture t,1", "#texture u,1", "c"] := by decide +kernel
  have hd : (parse "f" "#texture t,1\na").result = .ok _ := rfl
  have he : (parse "g" "#setting title,b\na").result = .ok _ := rfl
  refine ⟨?_, _, _, hd, he, source_lines_and_directives_independent.2 _ _ _ _ _ _ hd he
    (by decide +kernel) (by decide +kernel)⟩
  rcases source_lines_and_directives_independent.1 "f" _ _ hsame with
    ⟨d, _, hok, -⟩ | ⟨c, j, m, n, hm, hn, hjm, hjn⟩
  · cases ha.symm.trans hok
  · cases ha.symm.trans hm
    exact ⟨j, n, hn, hla ▸ hjm, hlb ▸ hjn⟩

end Script

end ShaderFilter
