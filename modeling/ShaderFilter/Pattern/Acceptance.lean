import ShaderFilter.Pattern.Grammar
import ShaderFilter.Pattern.Meaning
import ShaderFilter.Pattern.Size

/-!
# Accepted patterns

Which texts are read as patterns. A text is refused for a mistake in its form, then for one in its meaning,
and then for what the pattern would take to be searched for.
-/

namespace ShaderFilter.Pattern

/-- Why a text is refused as a pattern. -/
inductive PatternError where
  /-- There is a mistake in the text. -/
  | mistake (m : Mistake)
  /-- The pattern is too large. -/
  | tooLarge
  /-- Edges of words beyond ASCII are asked for. -/
  | unicodeEdge
  deriving DecidableEq

/-- The message of an error in a text. -/
def PatternError.message (text : String) : PatternError → String
  | .mistake m => m.message text.toList
  | .tooLarge => s!"Compiled regex exceeds size limit of {sizeLimit} bytes."
  | .unicodeEdge => "error building NFA"

/-- Why a pattern cannot be searched for. It is laid out for reading forwards first. -/
def obstacle? (p : Pattern) : Option PatternError :=
  if sizeLimit < p.size then some .tooLarge
  else if p.asksUnicodeEdge then some .unicodeEdge
  else if sizeLimit < p.sizeBackwards then some .tooLarge
  else none

/-- Reads a pattern. -/
def read (text : String) : Except PatternError Pattern := do
  let t ← (Tree.read text.toList).mapError .mistake
  let (p, _) ← (t.pattern.run {}).mapError .mistake
  match p.obstacle? with
  | some e => throw e
  | none => return p

end ShaderFilter.Pattern
