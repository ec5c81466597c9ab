import ShaderFilter.Parameter
import ShaderFilter.Text.Lines

/-!
# Filter definitions

What a filter script says: settings, parameters, textures, and the shader source, in which the lines of
the directives are blank.
-/

namespace ShaderFilter

open Number (Word)

/-- A texture of a filter. -/
structure Texture where
  /-- The name in the script. -/
  name : String
  /-- The resource slot of the shader; slot 0 is the source image. -/
  binding : Word
  deriving DecidableEq

/-- A filter as its script defines it. -/
structure Definition where
  /-- The title. -/
  name : String
  /-- What the filter does. -/
  description : String
  /-- Whether the filter runs once for each direction. -/
  separable : Bool
  /-- Whether one invocation is enough. -/
  singleInvocation : Bool
  /-- The parameters in the order of their declarations. -/
  parameters : List Parameter
  /-- The textures in the order of their declarations. -/
  textures : List Texture
  /-- The shader source. -/
  source : String
  deriving DecidableEq

namespace Definition

/-- The definition of an empty script, with the title it has unless a setting gives one. -/
def blank (name : String) : Definition :=
  { name, description := "", separable := false, singleInvocation := true
    parameters := [], textures := [], source := "" }

/-- The first parameter with a name; the one that directives refer to. -/
def parameter? (d : Definition) (name : String) : Option Parameter :=
  d.parameters.find? fun p => p.name == name

/-- Enters a texture into a list in the order of the names, in the place of one with the same name. -/
def enterTexture (t : Texture) : List Texture → List Texture
  | [] => [t]
  | u :: us =>
    if t.name < u.name then t :: u :: us
    else if t.name = u.name then t :: us
    else u :: enterTexture t us

/-- One texture for each name, the last declared one, in the order of the names. -/
def textureBindings (d : Definition) : List Texture :=
  d.textures.foldl (fun ts t => enterTexture t ts) []

/-- The number of lines of the shader source. -/
def lineCount (d : Definition) : Nat := Text.countLines d.source

end Definition

end ShaderFilter
