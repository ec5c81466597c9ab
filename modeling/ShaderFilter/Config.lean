import ShaderFilter.Files.Tree
import ShaderFilter.Log
import ShaderFilter.Text.Utf8
import ShaderFilter.Toml.Document

/-!
# Configuration

Where filters are looked for, and which file extensions they have. The first configuration file that
exists is the only one that is read; what the command line gives replaces what it says.
-/

namespace ShaderFilter

/-- Where filters are looked for. -/
structure Config where
  /-- The folders, beside the built-in filters. -/
  dirs : List String
  /-- The extensions of filter files. -/
  extensions : List String
  deriving DecidableEq

namespace Config

/-- The extensions where none are configured. -/
def defaultExtensions : List String := ["comp", "glsl", "hlsl", "frag"]

/-- The configuration without a file. -/
def standard : Config := ⟨[], defaultExtensions⟩

/-- Replaces the folders and the extensions, each only if others are given. -/
def override (c : Config) (dirs extensions : List String) : Config :=
  { dirs := if dirs = [] then c.dirs else dirs
    extensions := if extensions = [] then c.extensions else extensions }

/-! ### Reading -/

/-- The strings of an array of strings. -/
def strings? : Toml.Value → Option (List String)
  | .array items => items.mapM fun
    | .string s => some s
    | _ => none
  | _ => none

/-- The strings of an array of strings, or others where it is missing. -/
def stringsOr (missing : List String) : Option Toml.Value → Option (List String)
  | some v => strings? v
  | none => some missing

/-- The configuration of folders and extensions, each of which may be missing. -/
def ofValues? (dirs extensions : Option Toml.Value) : Option Config := do
  let dirs ← stringsOr [] dirs
  let extensions ← stringsOr defaultExtensions extensions
  pure { dirs, extensions }

/-- The configuration of a document. It is the table `filters`, or an array with the folders first and the
extensions second; a date counts as a table in which nothing is configured. -/
def ofTable? (t : Toml.Table) : Option Config :=
  match t.get? "filters" with
  | none => some standard
  | some (.table _ entries) =>
    ofValues? (Toml.Table.get? entries "dirs") (Toml.Table.get? entries "extensions")
  | some (.array items) => ofValues? items[0]? items[1]?
  | some (.dateTime _) => some standard
  | some _ => none

/-- Reads a configuration from the text of a file. -/
def read? (text : String) : Option Config := Toml.read? text >>= ofTable?

/-- The text of a file, if it can be read and is well formed. -/
def textOf? (t : Files.Tree) (path : String) : Option String :=
  match t.read path with
  | .ok bytes => (Text.Utf8.decode? bytes).map String.ofList
  | .error _ => none

/-- Loads a configuration file with a reader of configurations. -/
def load? (reader : String → Option Config) (t : Files.Tree) (path : String) : Option Config :=
  textOf? t path >>= reader

/-! ### The configuration file -/

/-- What the environment of the program says about folders. -/
structure Environment where
  /-- The home folder of the user. -/
  home : Option String
  /-- The folder of configuration files, if it is not the one in the home folder. -/
  configHome : Option String

namespace Environment

/-- The configuration file in a folder of configuration files. -/
def fileIn (folder : String) : String :=
  Files.Path.join (Files.Path.join folder "filterscript") "config.toml"

/-- The places where a configuration file may be, in the order in which they are looked at. -/
def candidates (env : Environment) : List String :=
  let user := env.home.map (Files.Path.join · ".config")
  "filterscript.toml" ::
    (user.toList ++ (env.configHome <|> user).toList).map fileIn

end Environment

/-- The first configuration file that exists. -/
def find? (env : Environment) (t : Files.Tree) : Option String := env.candidates.find? t.has

/-- The configuration that is in effect: that of the file at `chosen`, or else of the first one that
exists. What cannot be loaded counts as the standard configuration. -/
def inEffect (reader : String → Option Config) (env : Environment) (t : Files.Tree)
    (chosen : Option String) : Config :=
  match chosen <|> find? env t with
  | some path => (load? reader t path).getD standard
  | none => standard

/-- What is noted when the configuration is loaded. -/
def records (reader : String → Option Config) (env : Environment) (t : Files.Tree)
    (chosen : Option String) : List Log.Record :=
  match chosen <|> find? env t with
  | none => []
  | some path =>
    match textOf? t path, load? reader t path with
    | _, some _ => [⟨.info, .program, s!"Loaded config from {path}"⟩]
    | some _, none => [
        ⟨.warn, .config, "Invalid config: not a document with a valid filters section"⟩,
        ⟨.warn, .program, s!"Failed to load config from {path}"⟩]
    | none, none => [⟨.warn, .program, s!"Failed to load config from {path}"⟩]

end Config

end ShaderFilter
