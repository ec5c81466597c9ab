import ShaderFilter.Proofs.Endings
import ShaderFilter.Proofs.Source

/-!
# The start of a script

A script is read from its start, so what its first lines say does not depend on the lines after
them. If they are refused, the script is refused at the same line for the same reason. If the
script parses, so do its first lines by themselves, and what they declare stands at the start of
what the script declares (`Definition.StartOf`): directives add to the parameters, the textures
and the source at their ends, and an action changes no declaration.

The first lines of a script are a text again (`Text.firstLines`), which is cut off behind a
terminator and never within a pair.
-/

namespace ShaderFilter

open Number (Word)

/-- What a parameter is declared as: all of it but its actions. -/
structure Declaration where
  /-- The name. -/
  name : String
  /-- The location of the uniform. -/
  location : Word
  /-- The kind of the values. -/
  kind : Kind
  /-- The lower bound. -/
  min : Value
  /-- The upper bound. -/
  max : Value
  /-- The default. -/
  default : Value
  deriving DecidableEq

/-- What a parameter is declared as. -/
def Parameter.declaration (p : Parameter) : Declaration :=
  ⟨p.name, p.location, p.kind, p.min, p.max, p.default⟩

/-- An action leaves bounds and default as they are. -/
theorem Control.bounds_bind {α : Type} [Scalar α] (c : Control α) (t : Trigger)
    (a : Action Value) :
    (c.bind t a).min = c.min ∧ (c.bind t a).max = c.max ∧ (c.bind t a).default = c.default := by
  unfold Control.bind
  split <;> exact ⟨rfl, rfl, rfl⟩

/-- An action changes no declaration. -/
theorem Parameter.declaration_bind (p : Parameter) (t : Trigger) (a : Action Value) :
    (p.bind t a).declaration = p.declaration := by
  obtain ⟨name, location, control⟩ := p
  cases control with
  | float c | int c | bool c =>
    obtain ⟨hmin, hmax, hdefault⟩ := c.bounds_bind t a
    simp [declaration, bind, kind, Parameter.min, Parameter.max, Parameter.default, AnyControl.map,
      AnyControl.elim, hmin, hmax, hdefault]

namespace Definition

/-- What the parameters are declared as. -/
def declarations (d : Definition) : List Declaration := d.parameters.map Parameter.declaration

theorem declarations_bind (d : Definition) (b : Binding) :
    (d.change (.bind b)).declarations = d.declarations :=
  map_updateFirst fun p => p.declaration_bind b.trigger b.action

/-- A definition is the start of another one, but for settings and actions. -/
structure StartOf (d e : Definition) : Prop where
  /-- The textures. -/
  textures : d.textures <+: e.textures
  /-- The source. -/
  source : d.source.toList <+: e.source.toList
  /-- The declarations of the parameters. -/
  declarations : d.declarations <+: e.declarations

namespace StartOf

theorem refl (d : Definition) : d.StartOf d :=
  ⟨List.prefix_refl _, List.prefix_refl _, List.prefix_refl _⟩

theorem trans {d e f : Definition} (h : d.StartOf e) (h' : e.StartOf f) : d.StartOf f :=
  ⟨h.textures.trans h'.textures, h.source.trans h'.source, h.declarations.trans h'.declarations⟩

/-- A change adds to what is declared at its end, if it adds at all. -/
theorem change (d : Definition) (c : Change) : d.StartOf (d.change c) := by
  have hsource : d.source.toList <+: (d.change c).source.toList :=
    source_change d c ▸ List.prefix_refl _
  cases c with
  | declare p =>
    refine ⟨List.prefix_refl _, hsource, [p.declaration], ?_⟩
    simp [Definition.declarations, Definition.change]
  | attach t => exact ⟨⟨[t], rfl⟩, hsource, List.prefix_refl _⟩
  | set s => exact ⟨by simp, hsource, by simp [Definition.declarations]⟩
  | bind b => exact ⟨List.prefix_refl _, hsource, d.declarations_bind b ▸ List.prefix_refl _⟩

theorem addLine (d : Definition) (line : String) : d.StartOf (d.addLine line) := by
  refine ⟨List.prefix_refl _, ⟨(line ++ "\n").toList, ?_⟩, List.prefix_refl _⟩
  rw [← String.toList_append, ← String.append_assoc]
  rfl

theorem step {d e : Definition} {line : String} (h : (d.step line).result = .ok e) :
    d.StartOf e := by
  rcases result_step_eq_ok.1 h with ⟨-, rfl⟩ | ⟨c, -, rfl⟩
  · exact addLine d line
  · exact (change d c).trans (addLine _ _)

theorem reaches {d e : Definition} {lines : List String} (h : Script.Reaches d lines e) :
    d.StartOf e := by
  induction h with
  | nil => exact refl d
  | snoc _ hl ih => exact ih.trans (step hl)

end StartOf

end Definition

namespace Script

/-- The first lines of a script that parses form one that parses. -/
theorem parse_firstLines {name text : String} {d : Definition}
    (h : (parse name text).result = .ok d) (k : Nat) :
    ∃ e, (parse name (Text.firstLines k text)).result = .ok e ∧ e.StartOf d := by
  have hlines := List.take_append_drop k (Text.lines text)
  rw [result_parse_eq_ok, ← hlines, reaches_append] at h
  obtain ⟨e, he, hd⟩ := h
  refine ⟨e, result_parse_eq_ok.2 ?_, .reaches hd⟩
  rwa [Text.lines_firstLines]

/-- **The first line that is refused decides, and nothing after it.** The first lines of a script,
with their terminators, form a script. If the script is refused at a line, this is one of its
lines; the lines before it form a script that parses, with a source of as many lines; and every
script that starts with the same lines up to this one is refused at it for the same reason. If a
script parses, so does every start of it, and the textures, the source and the declared parameters
of the start are the start of those of the script. -/
theorem first_refusal_decides (name text : String) :
    (∀ es, Text.Scans text.toList es → ∀ k, Text.firstLines k text = Text.join (es.take k)) ∧
    (∀ n c, (parse name text).result = .error ⟨n, c⟩ →
      1 ≤ n ∧ n ≤ (Text.lines text).length ∧
      (∃ d, (parse name (Text.firstLines (n - 1) text)).result = .ok d ∧ d.lineCount = n - 1) ∧
      ∀ other, (Text.lines other).take n = (Text.lines text).take n →
        (parse name other).result = .error ⟨n, c⟩) ∧
    ∀ d, (parse name text).result = .ok d → ∀ k ≤ (Text.lines text).length,
      ∃ e, (parse name (Text.firstLines k text)).result = .ok e ∧ e.StartOf d := by
  refine ⟨fun _ => Text.firstLines_of_scans, fun n c h => ?_, fun d h k _ => parse_firstLines h k⟩
  obtain ⟨before, line, after, d, hlines, rfl, hd, hc⟩ := result_parse_eq_error.1 h
  have hbefore : Text.lines (Text.firstLines before.length text) = before := by
    rw [Text.lines_firstLines, hlines, List.take_left]
  have hparse : (parse name (Text.firstLines before.length text)).result = .ok d :=
    result_parse_eq_ok.2 (hbefore.symm ▸ hd)
  refine ⟨Nat.le_add_left 1 _, ?_, ⟨d, hparse, ?_⟩, fun other hother => ?_⟩
  · simp [hlines]
  · rw [lineCount_of_parse hparse, hbefore, Nat.add_sub_cancel]
  · have htake : (Text.lines text).take (before.length + 1) = before ++ [line] := by
      rw [hlines, List.take_length_add_append]
      rfl
    refine result_parse_eq_error.2
      ⟨before, line, (Text.lines other).drop (before.length + 1), d, ?_, rfl, hd, hc⟩
    rw [← List.singleton_append, ← List.append_assoc, ← htake, ← hother, List.take_append_drop]

/-- A script whose third line takes a binding again, with a pair and a lone carriage return. -/
def refusedLines : String := "#texture a,1\r\n\r#texture b,1\r\n#param"

/-- The first two lines parse, and what comes after the third one does not matter. -/
theorem first_refusal_decides_binding :
    Text.firstLines 2 refusedLines = "#texture a,1\r\n\r" ∧
    (∃ d, (parse "f" (Text.firstLines 2 refusedLines)).result = .ok d ∧ d.lineCount = 2) ∧
    (parse "f" "#texture a,1\n\n#texture b,1").result =
      .error ⟨3, .duplicateBinding ⟨1, by decide, by decide⟩⟩ ∧
    ∃ d e, (parse "f" "#texture a,1\r\n\r").result = .ok d ∧
      (parse "f" (Text.firstLines 1 "#texture a,1\r\n\r")).result = .ok e ∧ e.StartOf d := by
  have hrefused : (parse "f" refusedLines).result =
      .error ⟨3, .duplicateBinding ⟨1, by decide, by decide⟩⟩ := by decide +kernel
  obtain ⟨-, -, hparse, hother⟩ := (first_refusal_decides "f" refusedLines).2.1 _ _ hrefused
  have hscans : Text.Scans refusedLines.toList
      [⟨"#texture a,1".toList, some .pair⟩, ⟨[], some .carriage⟩,
        ⟨"#texture b,1".toList, some .pair⟩, ⟨"#param".toList, none⟩] :=
    Text.scans_iff.2 ⟨by decide +kernel, by decide +kernel⟩
  have hfirst := (first_refusal_decides "f" refusedLines).1 _ hscans 2
  have hsame : (Text.lines "#texture a,1\n\n#texture b,1").take 3 =
      (Text.lines refusedLines).take 3 := by decide +kernel
  have hd : (parse "f" "#texture a,1\r\n\r").result = .ok _ := rfl
  obtain ⟨e, he, hstart⟩ := (first_refusal_decides "f" _).2.2 _ hd 1 (by decide +kernel)
  exact ⟨hfirst.trans (by decide +kernel), hparse, hother _ hsame, _, e, hd, he, hstart⟩

end Script

end ShaderFilter
