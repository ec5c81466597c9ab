import ShaderFilter.Proofs.Run
import ShaderFilter.Proofs.Text.Lines

/-!
# The shader source

The source of a definition has one line for each line of its script: the line itself, or a blank
line in the place of a directive. So a compiler that names a line of the source names a line of
the script. Two readings of "line" meet here. The script is divided at line feeds and carriage
returns (`Text.lines`), the source by a compiler at line feeds (`Text.feedLines`); they agree
because a line of a script holds no character that ends a line.
-/

namespace ShaderFilter

/-- What a line of a script leaves in the shader source. -/
def Directive.shown (line : String) : String :=
  if Directive.classify? line = none then line else ""

namespace Definition

theorem source_set (d : Definition) (s : Setting) : (d.set s).source = d.source := by
  cases s <;> rfl

/-- No change touches the source. -/
theorem source_change (d : Definition) (c : Change) : (d.change c).source = d.source := by
  cases c with
  | set s => exact d.source_set s
  | _ => rfl

theorem source_of_step {d e : Definition} {line : String} (h : (d.step line).result = .ok e) :
    e.source = d.source ++ (Directive.shown line ++ "\n") := by
  rcases result_step_eq_ok.1 h with ⟨hc, rfl⟩ | ⟨c, hs, rfl⟩
  · simp [Directive.shown, hc, addLine, String.append_assoc]
  · obtain ⟨directive, args, hc, -⟩ := says_iff.1 hs
    simp [Directive.shown, hc, addLine, source_change]

end Definition

namespace Script

theorem source_of_reaches {d e : Definition} {lines : List String} (h : Reaches d lines e) :
    e.source = d.source ++ String.join (lines.map fun line => Directive.shown line ++ "\n") := by
  induction h with
  | nil => simp
  | snoc _ hl ih => rw [Definition.source_of_step hl, ih]; simp [String.append_assoc]

theorem source_of_parse {name text : String} {d : Definition}
    (h : (parse name text).result = .ok d) :
    d.source = String.join ((Text.lines text).map fun line => Directive.shown line ++ "\n") := by
  rw [source_of_reaches (result_parse_eq_ok.1 h)]
  exact String.empty_append

theorem plain_shown {line : String} (h : Text.Plain line.toList) :
    Text.Plain (Directive.shown line).toList := by
  unfold Directive.shown
  split
  · exact h
  · exact Text.plain_nil

/-- The source has as many lines for a compiler as the script has. -/
theorem lineCount_of_parse {name text : String} {d : Definition}
    (h : (parse name text).result = .ok d) : d.lineCount = (Text.lines text).length := by
  have hp : ∀ l ∈ (Text.lines text).map Directive.shown, Text.Plain l.toList :=
    List.forall_mem_map.2 fun _ hl => plain_shown (Text.plain_of_mem_lines hl)
  have hj := Text.feedLines_join hp
  rw [List.map_map] at hj
  rw [Definition.lineCount, Text.countLines_eq, source_of_parse h]
  exact (congrArg List.length hj).trans (List.length_map _)

/-- **The source of a script has the lines of the script**, those of directives blank, each
ended by a line feed. So it holds no carriage return, has as many lines for a compiler as the
script has, and the line with a number is the line of the script with this number, or blank. The
lines of the script are those that its line feeds and carriage returns make, in any mix. -/
theorem source_aligned {name text : String} {d : Definition}
    (h : (parse name text).result = .ok d) :
    (∀ ls, Text.Lined text.toList ls ↔ ls = (Text.lines text).map String.toList) ∧
    d.source = String.join ((Text.lines text).map fun line => Directive.shown line ++ "\n") ∧
    '\r' ∉ d.source.toList ∧
    d.lineCount = (Text.lines text).length ∧
    Text.feedLines d.source = (Text.lines text).map Directive.shown ∧
    ∀ (k : Nat) (line : String), (Text.lines text)[k]? = some line →
      (Text.feedLines d.source)[k]? = some line ∨ (Text.feedLines d.source)[k]? = some "" := by
  have hs := source_of_parse h
  have hp : ∀ l ∈ (Text.lines text).map Directive.shown, Text.Plain l.toList := by
    intro l hl
    obtain ⟨line, hline, rfl⟩ := List.mem_map.1 hl
    exact plain_shown (Text.plain_of_mem_lines hline)
  have hj : d.source = String.join (((Text.lines text).map Directive.shown).map (· ++ "\n")) := by
    rw [hs, List.map_map]
    rfl
  have hf : Text.feedLines d.source = (Text.lines text).map Directive.shown := by
    rw [hj, Text.feedLines_join hp]
  refine ⟨fun ls => Text.lined_lines_iff, hs, ?_, ?_, hf, ?_⟩
  · rw [hj]
    exact Text.carriage_not_mem_join hp
  · rw [Definition.lineCount, Text.countLines_eq, hf, List.length_map]
  · intro k line hk
    rw [hf, List.getElem?_map, hk, Option.map_some]
    unfold Directive.shown
    split
    · exact .inl rfl
    · exact .inr rfl

/-- A script with three ways to end a line, and a last line that none of them ends. -/
theorem source_aligned_mixed :
    ∃ d, (parse "f" "a\r#texture t,1\r\n\nb").result = .ok d ∧ d.source = "a\n\n\nb\n" ∧
      d.lineCount = 4 := by
  have h : (parse "f" "a\r#texture t,1\r\n\nb").result = .ok _ := rfl
  obtain ⟨-, hsource, -, hcount, -⟩ := source_aligned h
  exact ⟨_, h, hsource, hcount⟩

end Script

end ShaderFilter
