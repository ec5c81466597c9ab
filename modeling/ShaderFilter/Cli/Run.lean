import ShaderFilter.Cli.Options
import ShaderFilter.Cli.Report
import ShaderFilter.Config
import ShaderFilter.Library
import ShaderFilter.Log.Filter
import ShaderFilter.Text.Invisible

/-!
# Runs of the command line

A run as a function of the environment, the file tree and the arguments. Every file is treated by itself:
one that cannot be loaded is counted and does not stop the others.
-/

namespace ShaderFilter.Cli

open Log (Record)

/-- What a run writes, and the error that it ends with. -/
structure Transcript where
  /-- The standard output. -/
  output : String
  /-- The log. -/
  records : List Record
  /-- The message of the error. -/
  failure : Option String

/-- What the run makes of one file. -/
structure FileReport where
  /-- The standard output. -/
  output : String
  /-- The log. -/
  records : List Record
  /-- Whether the file could not be loaded. -/
  failed : Bool

/-- The report about a filter. -/
def report (o : Options) (keys : List Key) (d : Definition) : String :=
  (if o.json then line d.exportText else summary d) ++
    (if o.source then line d.source else "") ++
    (if keys = [] then "" else pressReport keys d)

/-- The report about a file. -/
def fileReport (t : Files.Tree) (o : Options) (keys : List Key) (path : String) : FileReport :=
  let loaded := loadFilter t path
  match loaded.result with
  | .ok d => ⟨report o keys d, loaded.records, false⟩
  | .error e =>
    ⟨"", loaded.records ++ [⟨.error, .program, s!"{path}: {e.message}"⟩], true⟩

/-- The reports about all files, and a count of those that failed. -/
def reportFiles (t : Files.Tree) (o : Options) (keys : List Key) : Transcript :=
  let reports := o.files.map (fileReport t o keys)
  let failed := reports.countP FileReport.failed
  { output := String.join (reports.map FileReport.output)
    records := reports.flatMap FileReport.records
    failure := if failed = 0 then none
      else some s!"{failed} of {o.files.length} filters failed to load" }

/-- The line about a found filter: its title and description, or why it cannot be loaded. -/
def listLine (f : Found) : Except FilterError Definition → String
  | .ok d => line s!"  {Text.padRight 24 d.name} {d.description}"
  | .error e => line s!"  {Text.padRight 24 f.path} ({e.message})"

/-- The list of the filters of some folders. -/
def listFilters (t : Files.Tree) (folders : List String) (extensions : List String) : Transcript :=
  let found := Library.list t folders extensions
  match found.result with
  | .error e => ⟨"", found.records, some e.message⟩
  | .ok [] =>
    let names := ", ".intercalate (folders.map Text.visible)
    ⟨line s!"No filters found in [{names}]", found.records, none⟩
  | .ok files =>
    let loaded := files.map fun f => (f, Library.load t f)
    { output := line "Available filters:" ++
        String.join (loaded.map fun (f, x) => listLine f x.result)
      records := found.records ++ loaded.flatMap fun (_, x) => x.records
      failure := none }

/-- The keys of some words, or the first word that stands for none. -/
def readKeys : List String → Except String (List Key)
  | [] => .ok []
  | word :: words =>
    match Key.read? word with
    | some k => (readKeys words).map (k :: ·)
    | none => .error word

/-- The run with some options and a configuration, where the built-in filters are in the folder
`builtIn`. -/
def perform (builtIn : String) (t : Files.Tree) (o : Options) (c : Config) : Transcript :=
  if o.list then listFilters t (c.dirs ++ [builtIn]) c.extensions
  else if o.files = [] then
    ⟨"", [], some "No filter files given (use --list to browse the filter directories)"⟩
  else match readKeys o.press with
    | .ok keys => reportFiles t o keys
    | .error word => ⟨"", [], some s!"Unknown key '{word}'"⟩

/-- The configuration that a run uses. -/
def configuration (reader : String → Option Config) (env : Config.Environment) (t : Files.Tree)
    (o : Options) : Config :=
  (Config.inEffect reader env t o.config).override o.dirs o.extensions

/-- The surroundings of a run, except for the file tree. -/
structure Environment extends Config.Environment, Installation

/-- The run with some options. -/
def transcript (env : Environment) (t : Files.Tree) (o : Options) : Transcript :=
  let run := perform (env.filters t) t o (configuration Config.read? env.toEnvironment t o)
  { run with records := Config.records Config.read? env.toEnvironment t o.config ++ run.records }

/-- What a run leaves behind. -/
structure Outcome where
  /-- The exit code. -/
  exit : Nat
  /-- The standard output. -/
  stdout : String
  /-- The standard error output. -/
  stderr : String
  deriving DecidableEq

/-- The outcome of a run whose log is filtered. -/
def Transcript.outcome (filter : Log.Filter) (x : Transcript) : Outcome :=
  let log := filter.lines x.records
  match x.failure with
  | none => ⟨0, x.output, log⟩
  | some message => ⟨1, x.output, log ++ line s!"Error: {message}"⟩

/-- An outcome after complaints about the log filter. -/
def Outcome.after (complaints : List Log.Complaint) (x : Outcome) : Outcome :=
  { x with stderr := String.join (complaints.map Log.Complaint.line) ++ x.stderr }

/-- Runs the command line; `log` is the text of the log filter. -/
def run (env : Environment) (t : Files.Tree) (log : String) (args : List String) : Outcome :=
  let (complaints, filter) := Log.Filter.read log
  let outcome := match Options.read args with
    | .ok o => (transcript env t o).outcome filter
    | .error e => ⟨2, "", line s!"error: {e.message}"⟩
  outcome.after complaints

end ShaderFilter.Cli
