import ShaderFilter.Proofs.Reading
import Mathlib.Data.List.Induction

/-!
# Runs

A run that refuses no line leads from one definition to another. `Reaches` grows such runs at
their end, which is the way in which statements about the lines read so far are proved: by
induction on `Reaches`, with one step for the next line. `result_parse_eq_ok` says that the
scripts that parse are those that have such a run.
-/

namespace ShaderFilter.Script

/-- The lines lead from `d` to another definition, and none of them is refused. -/
inductive Reaches (d : Definition) : List String → Definition → Prop where
  /-- No line leads to `d` itself. -/
  | nil : Reaches d [] d
  /-- One more line is taken in. -/
  | snoc {lines : List String} {line : String} {e f : Definition} :
      Reaches d lines e → (e.step line).result = .ok f → Reaches d (lines ++ [line]) f

theorem result_run_cons_eq_ok {d e : Definition} {n : Nat} {line : String} {lines : List String} :
    (run d n (line :: lines)).result = .ok e ↔
      ∃ f, (d.step line).result = .ok f ∧ (run f (n + 1) lines).result = .ok e := by
  simp only [run, Logged.result_bind, bind_eq_ok, Logged.mapError, mapError_eq_ok]

/-- One more line at the end of a run. -/
theorem result_run_snoc_eq_ok {d f : Definition} {n : Nat} {lines : List String} {line : String} :
    (run d n (lines ++ [line])).result = .ok f ↔
      ∃ e, (run d n lines).result = .ok e ∧ (e.step line).result = .ok f := by
  induction lines generalizing d n with
  | nil => rw [List.nil_append, result_run_cons_eq_ok]; simp [run]
  | cons l ls ih =>
    simp only [List.cons_append, result_run_cons_eq_ok, ih]
    constructor
    · rintro ⟨g, hg, e, he, hf⟩
      exact ⟨e, ⟨g, hg, he⟩, hf⟩
    · rintro ⟨e, ⟨g, hg, he⟩, hf⟩
      exact ⟨g, hg, e, he, hf⟩

theorem result_run_eq_ok {d e : Definition} {n : Nat} {lines : List String} :
    (run d n lines).result = .ok e ↔ Reaches d lines e := by
  constructor
  · intro h
    induction lines using List.reverseRecOn generalizing e with
    | nil =>
      cases h
      exact .nil
    | append_singleton ls l ih =>
      obtain ⟨f, hf, hl⟩ := result_run_snoc_eq_ok.1 h
      exact (ih hf).snoc hl
  · intro h
    induction h with
    | nil => rfl
    | snoc _ hl ih => exact result_run_snoc_eq_ok.2 ⟨_, ih, hl⟩

theorem result_run_cons_eq_error {d : Definition} {n : Nat} {line : String} {lines : List String}
    {e : LineError} :
    (run d n (line :: lines)).result = .error e ↔
      (∃ c, (d.step line).result = .error c ∧ e = ⟨n, c⟩) ∨
      ∃ f, (d.step line).result = .ok f ∧ (run f (n + 1) lines).result = .error e := by
  simp only [run, Logged.result_bind, Logged.mapError]
  cases (d.step line).result <;> simp [eq_comm]

theorem reaches_snoc_iff {d f : Definition} {lines : List String} {line : String} :
    Reaches d (lines ++ [line]) f ↔ ∃ e, Reaches d lines e ∧ (e.step line).result = .ok f := by
  simp only [← result_run_eq_ok (n := 1), result_run_snoc_eq_ok]

theorem reaches_nil_iff {d e : Definition} : Reaches d [] e ↔ e = d := by
  rw [← result_run_eq_ok (n := 1)]
  simp [run, eq_comm]

theorem reaches_cons_iff {d f : Definition} {line : String} {lines : List String} :
    Reaches d (line :: lines) f ↔ ∃ e, (d.step line).result = .ok e ∧ Reaches e lines f := by
  simp only [← result_run_eq_ok (n := 1), result_run_cons_eq_ok]
  simp only [result_run_eq_ok]

/-- A run can be parted at every line. -/
theorem reaches_append {d f : Definition} {as bs : List String} :
    Reaches d (as ++ bs) f ↔ ∃ e, Reaches d as e ∧ Reaches e bs f := by
  induction as generalizing d with
  | nil => simp [reaches_nil_iff]
  | cons a as ih =>
    simp only [List.cons_append, reaches_cons_iff, ih]
    constructor
    · rintro ⟨e, he, g, hg, hf⟩
      exact ⟨g, ⟨e, he, hg⟩, hf⟩
    · rintro ⟨g, ⟨e, he, hg⟩, hf⟩
      exact ⟨e, he, g, hg, hf⟩

/-- **A run is refused at the first line that is refused.** The lines before it lead to the
definition that refuses it, and the lines after it do not matter. -/
theorem result_run_eq_error {d : Definition} {n m : Nat} {lines : List String}
    {c : DirectiveError} :
    (run d n lines).result = .error ⟨m, c⟩ ↔
      ∃ before line after e, lines = before ++ line :: after ∧ m = n + before.length ∧
        Reaches d before e ∧ (e.step line).result = .error c := by
  constructor
  · intro h
    induction lines generalizing d n with
    | nil => cases h
    | cons line lines ih =>
      rcases result_run_cons_eq_error.1 h with ⟨_, hc, he⟩ | ⟨f, hf, hrun⟩
      · cases he
        exact ⟨[], line, lines, d, rfl, rfl, .nil, hc⟩
      · obtain ⟨before, l, after, e, rfl, rfl, he, hc⟩ := ih hrun
        refine ⟨line :: before, l, after, e, rfl, ?_, reaches_cons_iff.2 ⟨f, hf, he⟩, hc⟩
        rw [List.length_cons]
        omega
  · rintro ⟨before, line, after, e, rfl, rfl, he, hc⟩
    induction before generalizing d n with
    | nil =>
      cases reaches_nil_iff.1 he
      exact result_run_cons_eq_error.2 (.inl ⟨c, hc, rfl⟩)
    | cons l before ih =>
      obtain ⟨f, hf, he⟩ := reaches_cons_iff.1 he
      refine result_run_cons_eq_error.2 (.inr ⟨f, hf, ?_⟩)
      have := ih (n := n + 1) he
      rwa [List.length_cons, Nat.add_comm before.length, ← Nat.add_assoc]

/-- Two histories that are related one by one are related when they follow each other. -/
theorem rel_or {α β : Type} {r : α → β → Prop} {a a' : Option α} {b b' : Option β}
    (h : Option.Rel r a b) (h' : Option.Rel r a' b') : Option.Rel r (a.or a') (b.or b') := by
  cases h with
  | some h => exact .some h
  | none => exact h'

theorem result_parseLines (name : String) (lines : List String) :
    (parseLines name lines).result = (run (.blank name) 1 lines).result := by
  unfold parseLines
  cases h : (run (.blank name) 1 lines).result <;> simp [Logged.note, h]

/-- **A script parses to `d` if its lines lead to `d`.** -/
theorem result_parse_eq_ok {name text : String} {d : Definition} :
    (parse name text).result = .ok d ↔ Reaches (.blank name) (Text.lines text) d := by
  rw [parse, result_parseLines, result_run_eq_ok]

/-- A script is refused at the first of its lines that is refused. -/
theorem result_parse_eq_error {name text : String} {n : Nat} {c : DirectiveError} :
    (parse name text).result = .error ⟨n, c⟩ ↔
      ∃ before line after d, Text.lines text = before ++ line :: after ∧ n = before.length + 1 ∧
        Reaches (.blank name) before d ∧ (d.step line).result = .error c := by
  rw [parse, result_parseLines, result_run_eq_error]
  simp only [Nat.add_comm 1]

/-! ### What a script computes -/

theorem toOption_eq_some {ε α : Type} {x : Except ε α} {a : α} : x.toOption = some a ↔ x = .ok a := by
  cases x <;> simp [Except.toOption]

/-- A result that is computed from a parameter of a script is had by this parameter. -/
theorem exists_parameter {name text n : String} {β : Type} {f : Parameter → β} {b : β}
    (h : ((parse name text).result.toOption.bind (·.parameter? n)).map f = some b) :
    ∃ d p, (parse name text).result = .ok d ∧ d.parameter? n = some p ∧ f p = b := by
  obtain ⟨p, hp, hb⟩ := Option.map_eq_some_iff.1 h
  obtain ⟨d, hd, hp⟩ := Option.bind_eq_some_iff.1 hp
  exact ⟨d, p, toOption_eq_some.1 hd, hp, hb⟩

end ShaderFilter.Script
