import ShaderFilter.Loader

/-!
# Filter scripts

A script is read line by line. A line that is not a directive becomes a line of the shader
source; a directive changes the definition and leaves a blank line in the source, so that line
numbers of the source are line numbers of the script. The first directive that is refused ends
the reading (`Script.run`); a host that goes on after a refusal keeps the definition that the
refused line has left behind (`Script.feed`).
-/

namespace ShaderFilter

open Log (Record)

namespace Definition

/-- Takes a line in. -/
def step (d : Definition) (line : String) : Logged DirectiveError Definition :=
  match (Loader.takeLine line).run ⟨d, []⟩ with
  | .ok _ l => ⟨l.records, .ok l.definition⟩
  | .error e l => ⟨l.records, .error e⟩

/-- The definition that a line leaves behind, also where it is refused. -/
def advance (d : Definition) (line : String) : Definition :=
  match (Loader.takeLine line).run ⟨d, []⟩ with
  | .ok _ l => l.definition
  | .error _ l => l.definition

end Definition

/-- The refusal of a directive, with the number of its line, counted from one. -/
structure LineError where
  /-- The number of the line. -/
  line : Nat
  /-- Why the directive is refused. -/
  cause : DirectiveError
  deriving DecidableEq

/-- The message of an error with its line. -/
def LineError.message (e : LineError) : String := s!"{e.cause.message} at line {e.line}"

namespace Script

/-- Takes lines in, up to the first one that is refused; `n` is the number of the first line. -/
def run (d : Definition) (n : Nat) : List String → Logged LineError Definition
  | [] => pure d
  | line :: lines => do
    let d ← (d.step line).mapError (⟨n, ·⟩)
    run d (n + 1) lines

/-- Takes all lines in, and goes on after those that are refused. -/
def feed (d : Definition) (lines : List String) : Definition := lines.foldl Definition.advance d

/-- The record of a finished definition. -/
def loaded (d : Definition) : Record :=
  loaderRecord .info (s!"Loaded filter '{d.name}' ({d.parameters.length} parameters, " ++
    s!"{d.textures.length} textures)")

/-- Reads the lines of a script, whose title is `name` unless a setting gives one. -/
def parseLines (name : String) (lines : List String) : Logged LineError Definition := do
  let d ← run (.blank name) 1 lines
  Logged.note [loaded d]
  pure d

/-- Reads a script, whose title is `name` unless a setting gives one. -/
def parse (name text : String) : Logged LineError Definition := parseLines name (Text.lines text)

end Script

end ShaderFilter
