import ShaderFilter.Proofs.Source

/-!
# Stripping directives

The source of a definition is what is left of a script when its directives are stripped off. It is
a script again, and one without directives: a line of it is either a line that was no directive
or blank, and a blank line is no directive either (`Directive.classify?_shown`). Reading the
source gives these lines back, one for one (`Text.lines_feed`). So stripping it once more finds
nothing to strip.
-/

namespace ShaderFilter

/-- What a line leaves in the source is no directive. -/
theorem Directive.classify?_shown (line : String) : classify? (shown line) = none := by
  unfold shown
  split
  · assumption
  · decide +kernel

namespace Text

/-- Lines that are each ended by a line feed are the lines of the text that they make. -/
theorem lined_feed {ls : List (List Char)} (h : ∀ l ∈ ls, Plain l) :
    Lined (ls.flatMap (· ++ ['\n'])) ls := by
  induction ls with
  | nil => exact .nil
  | cons l ls ih =>
    obtain ⟨hl, hls⟩ := List.forall_mem_cons.1 h
    rw [List.flatMap_cons, List.append_assoc]
    exact .line .feed hl nofun (ih hls)

theorem lines_feed {ls : List String} (h : ∀ l ∈ ls, Plain l.toList) :
    lines (String.join (ls.map (· ++ "\n"))) = ls := by
  have hjoin : (String.join (ls.map (· ++ "\n"))).toList =
      (ls.map String.toList).flatMap (· ++ ['\n']) := by
    simp [String.toList_join, List.flatMap_map]
  have hlined := lined_iff.1 (lined_feed (List.forall_mem_map.2 h))
  rw [lines, hjoin, ← hlined, List.map_map]
  simp

end Text

namespace Script

/-- The lines of the source are those of the script, blank in the place of directives. -/
theorem lines_source {name text : String} {d : Definition}
    (h : (parse name text).result = .ok d) :
    Text.lines d.source = (Text.lines text).map Directive.shown := by
  have hplain : ∀ l ∈ (Text.lines text).map Directive.shown, Text.Plain l.toList :=
    List.forall_mem_map.2 fun _ hl => plain_shown (Text.plain_of_mem_lines hl)
  have hlines := Text.lines_feed hplain
  rw [List.map_map] at hlines
  rw [source_of_parse h]
  exact hlines

/-- Lines without a directive among them are all added to the source, and nothing else changes. -/
theorem reaches_source (d : Definition) {lines : List String}
    (h : ∀ l ∈ lines, Directive.classify? l = none) :
    Reaches d lines { d with source := d.source ++ String.join (lines.map (· ++ "\n")) } := by
  induction lines generalizing d with
  | nil => simpa using Reaches.nil (d := d)
  | cons l ls ih =>
    obtain ⟨hl, hls⟩ := List.forall_mem_cons.1 h
    have hstep : (d.step l).result = .ok (d.addLine l) :=
      Definition.result_step_eq_ok.2 (.inl ⟨hl, rfl⟩)
    refine reaches_cons_iff.2 ⟨d.addLine l, hstep, ?_⟩
    simpa [Definition.addLine, String.append_assoc] using ih (d.addLine l) hls

/-- **Stripping directives is idempotent.** The source of a script that parses holds no line that
is a directive. It parses again under every title, to a definition that has this title, the very
same source, and for the rest nothing but what an empty script has. -/
theorem strip_idempotent {name text : String} {d : Definition}
    (h : (parse name text).result = .ok d) :
    (∀ line ∈ Text.lines d.source, ¬ Directive.isDirective line) ∧
    ∀ title, (parse title d.source).result = .ok
      { name := title, description := "", separable := false, singleInvocation := true
        parameters := [], textures := [], source := d.source } := by
  have hlines := lines_source h
  have hnone : ∀ line ∈ Text.lines d.source, Directive.classify? line = none := by
    rw [hlines]
    exact List.forall_mem_map.2 fun line _ => Directive.classify?_shown line
  have hsource : String.join ((Text.lines d.source).map (· ++ "\n")) = d.source := by
    rw [hlines, List.map_map]
    exact (source_of_parse h).symm
  refine ⟨fun line hline => by simp [Directive.isDirective, hnone line hline], fun title => ?_⟩
  have hreach := reaches_source (.blank title) hnone
  rw [hsource] at hreach
  simpa [Definition.blank] using result_parse_eq_ok.2 hreach

/-- A script with three ways to end a line, and a line that only looks like a directive. -/
def strippable : String := "#param a,0,int\r\n #param b\r#setting title,t\n\na = b;"

/-- Only the line feeds of its source are new, and they stay. -/
theorem strip_idempotent_mixed :
    ∃ d, (parse "f" strippable).result = .ok d ∧ d.source = "\n #param b\n\n\na = b;\n" ∧
      ∃ e, (parse "g" d.source).result = .ok e ∧ e.source = d.source ∧ e.name = "g" ∧
        e.parameters = [] := by
  have hsource : (parse "f" strippable).result.toOption.map Definition.source =
      some "\n #param b\n\n\na = b;\n" := by decide +kernel
  obtain ⟨d, hd, hs⟩ := Option.map_eq_some_iff.1 hsource
  have h := toOption_eq_some.1 hd
  exact ⟨d, h, hs, _, (strip_idempotent h).2 "g", rfl, rfl, rfl⟩

end Script

end ShaderFilter
