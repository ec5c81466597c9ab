import ShaderFilter.Directive
import ShaderFilter.Value

/-!
# Errors of directives

One constructor for each cause, and the wording of all of them in one place.
-/

namespace ShaderFilter

/-- The vocabularies of which a directive uses a word. -/
inductive Vocabulary where
  /-- The kinds of parameters. -/
  | kind
  /-- The settings of a filter. -/
  | setting
  /-- The slots. -/
  | slot
  /-- The modifications. -/
  | modification
  deriving DecidableEq

/-- What a word of a vocabulary is called. -/
def Vocabulary.name : Vocabulary → String
  | .kind => "parameter type"
  | .setting => "setting"
  | .slot => "paramprop action"
  | .modification => "modification"

/-- The fields that hold a number of the shader interface. -/
inductive IndexField where
  /-- The location of a parameter. -/
  | location
  /-- The binding of a texture. -/
  | binding
  deriving DecidableEq

/-- The name of an index field. -/
def IndexField.name : IndexField → String
  | .location => "location"
  | .binding => "binding"

/-- Why a directive is refused. -/
inductive DirectiveError where
  /-- There are fewer fields than the directive needs. -/
  | notEnoughArguments (directive : Directive) (expected found : Nat)
  /-- A word is not in its vocabulary. -/
  | unknownKeyword (vocabulary : Vocabulary) (word : String)
  /-- A field is not a value of the kind. -/
  | conversion (target : Kind) (field : String)
  /-- An index field is not a number. -/
  | notANumber (place : IndexField) (field : String)
  /-- The binding is that of the source image. -/
  | reservedBinding
  /-- Another texture has the binding. -/
  | duplicateBinding (binding : Number.Word)
  /-- No parameter has the name. -/
  | unresolvedParameter (name : String)
  /-- No key has the name or code. -/
  | invalidKey (word : String)
  deriving DecidableEq

/-- The message of an error. -/
def DirectiveError.message : DirectiveError → String
  | .notEnoughArguments d expected found =>
    s!"not enough arguments for {d.marker} provided (expected {expected}, found {found})"
  | .unknownKeyword v word => s!"unknown {v.name} '{word}'"
  | .conversion target field => s!"cannot convert '{field}' to {target.name}"
  | .notANumber place field => s!"{place.name} must be a number, got '{field}'"
  | .reservedBinding => "texture binding 0 is reserved"
  | .duplicateBinding b => s!"texture binding {b.text} was used more than once"
  | .unresolvedParameter name => s!"could not match '{name}' to any parameter"
  | .invalidKey word => s!"could not match key '{word}' in keybinding"

end ShaderFilter
