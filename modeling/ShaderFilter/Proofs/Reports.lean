import ShaderFilter.Cli.Run
import ShaderFilter.Proofs.Rounds
import Mathlib.Data.List.Forall2

/-!
# Reports about filters

What the command line writes about a filter is made up of lines. `ReportLines` says which they are in
each of the output modes: the document or the summary first, then the source, then what the keys do.
Each part is there for its own option only. The summary goes through the definition in the order of its
fields, and a line that would say nothing is left out.
-/

namespace ShaderFilter.Cli

open Text (padRight)

/-- What a slot does to the default of a parameter. -/
inductive SlotLines (p : Parameter) (s : Slot) : List String → Prop where
  /-- The slot has an action. -/
  | fires {v : Value} : p.fire? (.slot s) p.default = some v →
      SlotLines p s ["    " ++ s.name ++ ": " ++ p.default.text ++ " -> " ++ v.text]
  /-- The slot has none. -/
  | silent : p.fire? (.slot s) p.default = none → SlotLines p s []

/-- The keys of a parameter. -/
inductive KeyLines (p : Parameter) : List String → Prop where
  /-- There are keys with an action. -/
  | bound : p.keys ≠ [] → KeyLines p ["    keys: " ++ ", ".intercalate (p.keys.map Key.name)]
  /-- No key has one. -/
  | free : p.keys = [] → KeyLines p []

/-- The lines about a parameter: its declaration, then its two slots and its keys. -/
inductive ParameterLines (p : Parameter) : List String → Prop where
  /-- All of these. -/
  | mk {add subtract keys : List String} :
      SlotLines p .onAdd add → SlotLines p .onSubtract subtract → KeyLines p keys →
      ParameterLines p (("  param " ++ padRight 16 p.name ++ " " ++ padRight 5 p.kind.name ++
        " location " ++ padRight 3 p.location.text ++ " default " ++ p.default.text ++
        " [" ++ p.min.text ++ ", " ++ p.max.text ++ "]") :: (add ++ subtract ++ keys))

/-- The lines of a summary: the name, the description unless it is empty, the flags, the parameters and
the textures. -/
inductive SummaryLines (d : Definition) : List String → Prop where
  /-- All of these. -/
  | mk {parameters : List (List String)} : List.Forall₂ ParameterLines d.parameters parameters →
      SummaryLines d (d.name :: (if d.description = "" then [] else ["  " ++ d.description]) ++
        ["  separable: " ++ Value.boolText d.separable ++
          ", single invocation: " ++ Value.boolText d.singleInvocation] ++
        parameters.flatten ++
        d.textureBindings.map fun t =>
          "  texture " ++ padRight 14 t.name ++ " binding " ++ t.binding.text)

/-- The lines of a report: the document or the summary, the source if it is asked for, and the held
value of each parameter on which one of the pressed keys is bound. -/
inductive ReportLines (o : Options) (keys : List Key) (d : Definition) : List String → Prop where
  /-- All of these. -/
  | mk {about : List String} :
      (if o.json then about = [d.exportText] else SummaryLines d about) →
      ReportLines o keys d (about ++ (if o.source then [d.source] else []) ++
        (d.parameters.filter (·.Answers keys)).map fun p =>
          "  " ++ p.name ++ " = " ++ (p.pressed keys).1.text)

/-- Lines, each with its end. -/
def joinLines (lines : List String) : String := String.join (lines.map (· ++ "\n"))

theorem joinLines_append (xs ys : List String) :
    joinLines (xs ++ ys) = joinLines xs ++ joinLines ys := by
  rw [joinLines, List.map_append, String.join_append, joinLines, joinLines]

theorem join_map_line (xs : List String) : String.join (xs.map line) = joinLines xs := rfl

/-- The slots of a parameter give their lines one after the other. -/
theorem exists_slotLines (p : Parameter) (slots : List Slot) :
    ∃ lines, List.Forall₂ (SlotLines p) slots lines ∧
      slots.filterMap (fun s => (p.fire? (.slot s) p.default).map fun next =>
        s!"    {s.name}: {p.default.text} -> {next.text}") = lines.flatten := by
  induction slots with
  | nil => exact ⟨[], .nil, rfl⟩
  | cons s slots ih =>
    obtain ⟨lines, hlines, heq⟩ := ih
    cases hfire : p.fire? (.slot s) p.default with
    | none => exact ⟨[] :: lines, .cons (.silent hfire) hlines, by simp [hfire, heq]⟩
    | some v =>
      refine ⟨_ :: lines, .cons (.fires hfire) hlines, ?_⟩
      rw [List.filterMap_cons, hfire, Option.map_some, heq]
      rfl

theorem exists_parameterLines (p : Parameter) :
    ∃ lines, ParameterLines p lines ∧ parameterReport p = joinLines lines := by
  obtain ⟨slots, hslots, heq⟩ := exists_slotLines p [.onAdd, .onSubtract]
  obtain ⟨add, _, hadd, hrest, rfl⟩ := List.forall₂_cons_left_iff.1 hslots
  obtain ⟨subtract, _, hsubtract, hnil, rfl⟩ := List.forall₂_cons_left_iff.1 hrest
  cases hnil
  have hkeys : ∃ keys, KeyLines p keys ∧ (if p.keys = [] then []
      else ["    keys: " ++ ", ".intercalate (p.keys.map Key.name)]) = keys := by
    by_cases h : p.keys = []
    · exact ⟨[], .free h, if_pos h⟩
    · exact ⟨_, .bound h, if_neg h⟩
  obtain ⟨keys, hkeys, heq'⟩ := hkeys
  refine ⟨_, .mk hadd hsubtract hkeys, ?_⟩
  have hdeclaration : s!"  param {padRight 16 p.name} {padRight 5 p.kind.name} " ++
      s!"location {padRight 3 p.location.text} default {p.default.text} " ++
      s!"[{p.min.text}, {p.max.text}]" = "  param " ++ padRight 16 p.name ++ " " ++
      padRight 5 p.kind.name ++ " location " ++ padRight 3 p.location.text ++ " default " ++
      p.default.text ++ " [" ++ p.min.text ++ ", " ++ p.max.text ++ "]" := by
    simp only [String.append_assoc]
    rfl
  simp only [parameterReport, heq, heq', join_map_line, hdeclaration]
  simp

theorem exists_summaryLines (d : Definition) :
    ∃ lines, SummaryLines d lines ∧ summary d = joinLines lines := by
  have hparameters : ∃ parameters, List.Forall₂ ParameterLines d.parameters parameters ∧
      String.join (d.parameters.map parameterReport) = joinLines parameters.flatten := by
    induction d.parameters with
    | nil => exact ⟨[], .nil, rfl⟩
    | cons p ps ih =>
      obtain ⟨parameters, hparameters, heq⟩ := ih
      obtain ⟨lines, hlines, hreport⟩ := exists_parameterLines p
      refine ⟨lines :: parameters, .cons hlines hparameters, ?_⟩
      rw [List.map_cons, String.join_cons, heq, hreport, List.flatten_cons, joinLines_append]
  obtain ⟨parameters, hparameters, heq⟩ := hparameters
  have hflags : s!"  separable: {Value.boolText d.separable}, " ++
      s!"single invocation: {Value.boolText d.singleInvocation}" =
      "  separable: " ++ Value.boolText d.separable ++ ", single invocation: " ++
        Value.boolText d.singleInvocation := by
    simp only [String.append_assoc]
    rfl
  refine ⟨_, .mk hparameters, ?_⟩
  simp only [summary, heq, hflags, join_map_line, joinLines_append]
  congr 2

/-- A report is made up of its lines. -/
theorem exists_reportLines (o : Options) (keys : List Key) (d : Definition) :
    ∃ lines, ReportLines o keys d lines ∧ report o keys d = joinLines lines := by
  have habout : ∃ about, (if o.json then about = [d.exportText] else SummaryLines d about) ∧
      (if o.json then line d.exportText else summary d) = joinLines about := by
    by_cases h : o.json
    · exact ⟨[d.exportText], by simp [h], by simp [h, joinLines, line]⟩
    · obtain ⟨about, habout, heq⟩ := exists_summaryLines d
      exact ⟨about, by simpa [h] using habout, by simpa [h] using heq⟩
  obtain ⟨about, habout, heq⟩ := habout
  have hsource : (if o.source then line d.source else "") =
      joinLines (if o.source then [d.source] else []) := by
    split <;> simp [joinLines, line]
  have hpresses : (if keys = [] then "" else pressReport keys d) =
      joinLines ((d.parameters.filter (·.Answers keys)).map fun p =>
        "  " ++ p.name ++ " = " ++ (p.pressed keys).1.text) := by
    have hheld : heldLine keys = line ∘ fun p => "  " ++ p.name ++ " = " ++
        (p.pressed keys).1.text := by
      funext p
      rfl
    have hreport : (if keys = [] then "" else pressReport keys d) = pressReport keys d := by
      split
      · rename_i h
        rw [h, pressReport_eq, List.filter_eq_nil_iff.2 (by simp [Parameter.Answers])]
        rfl
      · rfl
    rw [hreport, pressReport_eq, hheld, ← List.map_map, join_map_line]
  refine ⟨_, .mk habout, ?_⟩
  rw [report, heq, hsource, hpresses, joinLines_append, joinLines_append]

end ShaderFilter.Cli
