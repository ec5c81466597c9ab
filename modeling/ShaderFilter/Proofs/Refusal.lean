import ShaderFilter.Proofs.Run

/-!
# Refused lines

A loader may be refused at any field of a directive, with the parameter that it is about to
change at hand. Yet a refused line leaves the definition as it was (`advance_of_error`): it is
read against the definition from before the line, and only a line that has been read changes
anything (`Loader.run_takeLine`).

A host may go on after a refusal. It ends with the definition of the script that lacks the
refused lines, and this script is taken in without a refusal (`result_run_accepted`): the run
with all lines and the run with the accepted ones pass through the same definitions.
-/

namespace ShaderFilter

/-- A loader that refuses a line keeps its definition. -/
theorem Loader.definition_of_error {l l' : Loader} {line : String} {e : DirectiveError}
    (h : (takeLine line).run l = .error e l') : l'.definition = l.definition := by
  rw [run_takeLine] at h
  split at h
  · cases h
  · split at h
    · cases h
    · cases h
      rfl

/-- A refused line leaves the definition as it was. -/
theorem Definition.advance_of_error {d : Definition} {line : String} {e : DirectiveError}
    (h : (d.step line).result = .error e) : d.advance line = d := by
  unfold step at h
  unfold advance
  cases hl : (Loader.takeLine line).run ⟨d, []⟩ with
  | ok _ l => simp [hl] at h
  | error c l => exact Loader.definition_of_error hl

namespace Script

/-- The lines that are not refused when all of them are fed to a loader. -/
def accepted (d : Definition) : List String → List String
  | [] => []
  | line :: lines =>
    match (d.step line).result with
    | .ok _ => line :: accepted (d.advance line) lines
    | .error _ => accepted (d.advance line) lines

theorem feed_cons (d : Definition) (line : String) (lines : List String) :
    feed d (line :: lines) = feed (d.advance line) lines := rfl

/-- What every accepted line preserves is preserved by feeding any lines, be they refused or
not. -/
theorem feed_preserves {P : Definition → Prop}
    (hstep : ∀ {d e : Definition} {line : String}, P d → (d.step line).result = .ok e → P e)
    {d : Definition} (hd : P d) (lines : List String) : P (feed d lines) := by
  induction lines generalizing d with
  | nil => exact hd
  | cons line lines ih =>
    rw [feed_cons]
    cases h : (d.step line).result with
    | ok e => exact ih (Definition.advance_of_ok h ▸ hstep hd h)
    | error c => exact ih ((Definition.advance_of_error h).symm ▸ hd)

/-- The accepted lines are taken in one after the other, and lead where all lines lead. -/
theorem result_run_accepted (d : Definition) (n : Nat) (lines : List String) :
    (run d n (accepted d lines)).result = .ok (feed d lines) := by
  induction lines generalizing d n with
  | nil => rfl
  | cons line lines ih =>
    rw [feed_cons, accepted]
    cases h : (d.step line).result with
    | ok e =>
      rw [result_run_cons_eq_ok]
      exact ⟨e, h, Definition.advance_of_ok h ▸ ih (d.advance line) (n + 1)⟩
    | error c =>
      -- The run without the refused line is still where the run with it is.
      have hd := Definition.advance_of_error h
      rw [hd]
      exact ih d n

/-- A run without a refusal leads where feeding its lines leads. -/
theorem feed_eq_of_result_run {d e : Definition} {n : Nat} {lines : List String}
    (h : (run d n lines).result = .ok e) : feed d lines = e := by
  induction lines generalizing d n with
  | nil => exact Except.ok.inj h
  | cons line lines ih =>
    obtain ⟨f, hf, h⟩ := result_run_cons_eq_ok.1 h
    rw [feed_cons, Definition.advance_of_ok hf]
    exact ih h

/-- **Refused lines are as good as absent.** A line that is refused leaves the definition as it
was, whatever has been fed before. So the lines that are accepted when all are fed form a script
that parses, with the definition that feeding all of them, or feeding them alone, ends with. -/
theorem refused_lines_absent :
    (∀ (d : Definition) (line : String) (e : DirectiveError),
      (d.step line).result = .error e → d.advance line = d) ∧
    ∀ (name : String) (lines : List String),
      (parseLines name (accepted (.blank name) lines)).result = .ok (feed (.blank name) lines) ∧
      feed (.blank name) (accepted (.blank name) lines) = feed (.blank name) lines := by
  refine ⟨fun _ _ _ => Definition.advance_of_error, fun name lines => ?_⟩
  have h := result_run_accepted (.blank name) 1 lines
  exact ⟨(result_parseLines name _).trans h, feed_eq_of_result_run h⟩

/-- A line is refused at its value, when the parameter to be changed is at hand. -/
theorem refused_lines_absent_value :
    ((feed (.blank "f") ["#param a,0,float"]).step "#paramprop a,OnAdd,high,add").result =
        .error (.conversion .float "high") ∧
      (feed (.blank "f") ["#param a,0,float"]).advance "#paramprop a,OnAdd,high,add" =
        feed (.blank "f") ["#param a,0,float"] := by
  have h : ((feed (.blank "f") ["#param a,0,float"]).step "#paramprop a,OnAdd,high,add").result =
      .error (.conversion .float "high") := rfl
  exact ⟨h, refused_lines_absent.1 _ _ _ h⟩

end Script

end ShaderFilter
