import ShaderFilter.Files.Tree
import ShaderFilter.Script
import ShaderFilter.Text.Utf8

/-!
# Filter files

Reading a filter script from a file. Bytes that are not well formed as text do not prevent this: each
such part becomes one replacement character. The title is the name of the file unless a setting gives
one.
-/

namespace ShaderFilter

open Files (OsError Path.fileName?)

/-- Why a filter file cannot be loaded. -/
inductive FilterError where
  /-- The file cannot be read. -/
  | unreadable (path : String) (cause : OsError)
  /-- A directive is refused. -/
  | refused (e : LineError)
  deriving DecidableEq

namespace FilterError

/-- The message of an error. -/
def message : FilterError → String
  | .unreadable path cause => s!"failed to read filter {path}: {cause.message}"
  | .refused e => e.message

end FilterError

/-- Reads the bytes of a filter script. -/
def Script.parseBytes (name : String) (bytes : List UInt8) : Logged FilterError Definition :=
  (Script.parse name (String.ofList (Text.Utf8.decodeLossy bytes))).mapError .refused

/-- Loads a filter file. -/
def loadFilter (t : Files.Tree) (path : String) : Logged FilterError Definition :=
  match t.read path with
  | .ok bytes => Script.parseBytes ((Path.fileName? path).getD path) bytes
  | .error cause => Logged.quiet (.error (.unreadable path cause))

end ShaderFilter
