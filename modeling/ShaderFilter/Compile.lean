import ShaderFilter.Definition
import ShaderFilter.Log

/-!
# Compiling

A shader compiler is any function from a stage, a source and a name for diagnostics to a module or to a
chain of messages. Filters are compute shaders.
-/

namespace ShaderFilter

/-- The stages of the graphics pipeline. -/
inductive Stage where
  /-- Vertex shaders. -/
  | vertex
  /-- Pixel shaders. -/
  | pixel
  /-- Compute shaders. -/
  | compute
  deriving DecidableEq

/-- The target profile of a stage. -/
def Stage.profile : Stage → String
  | .vertex => "vs_5_0"
  | .pixel => "ps_5_0"
  | .compute => "cs_5_0"

/-- A shader compiler with modules of the type `μ`. A failure is a chain of messages, the outermost
first. -/
abbrev Compiler (μ : Type) := Stage → String → String → Except (List String) μ

/-- Compiles the source of a filter. The message of a failure names the filter and joins the chain. -/
def Definition.compile {μ : Type} (d : Definition) (c : Compiler μ) : Logged String μ := do
  Logged.note [⟨.debug, .compiler, s!"Compiling '{d.name}' ({Stage.compute.profile})"⟩]
  Logged.quiet <| (c .compute d.source d.name).mapError fun chain =>
    s!"{d.name} compilation failed: " ++ ": ".intercalate chain

end ShaderFilter
