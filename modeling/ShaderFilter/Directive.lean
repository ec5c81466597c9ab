/-!
# Directives

A line of a filter script is a directive if it starts with a marker, and otherwise part of the shader
source. One marker is the start of another one; the longest marker counts.
-/

namespace ShaderFilter

/-- The directives of a filter script. -/
inductive Directive where
  /-- Declares a parameter. -/
  | param
  /-- Gives a parameter an action on a slot. -/
  | paramProp
  /-- Declares a texture. -/
  | texture
  /-- Describes the filter. -/
  | setting
  /-- Gives a parameter an action on a key. -/
  | keybinding
  deriving DecidableEq

namespace Directive

/-- The text that a line with the directive starts with. -/
def marker : Directive → String
  | .param => "#param"
  | .paramProp => "#paramprop"
  | .texture => "#texture"
  | .setting => "#setting"
  | .keybinding => "#keybinding"

/-- All directives, those with longer markers first. -/
def all : List Directive := [.keybinding, .paramProp, .texture, .setting, .param]

/-- The arguments of the directive `d` on a line, if the line starts with its marker. -/
def arguments? (d : Directive) (line : String) : Option String :=
  (d.marker.toList.isPrefixOf? line.toList).map String.ofList

/-- The directive of a line and its arguments; none for a line of the shader source. -/
def classify? (line : String) : Option (Directive × String) :=
  all.findSome? fun d => (d.arguments? line).map (d, ·)

end Directive

end ShaderFilter
