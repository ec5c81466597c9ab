import ShaderFilter.Text.Fields

/-!
# Command-line options

Options may stand before and after the files. The value of an option follows it as an argument of its
own, or after an equals sign; after a short option it may also follow directly. Two dashes end the
options.
-/

namespace ShaderFilter.Cli

/-- What the command line asks for. -/
structure Options where
  /-- The filter files. -/
  files : List String := []
  /-- The configuration file. -/
  config : Option String := none
  /-- The folders that replace the configured ones. -/
  dirs : List String := []
  /-- The extensions that replace the configured ones. -/
  extensions : List String := []
  /-- Whether the filters of the folders are listed. -/
  list : Bool := false
  /-- Whether filters are written as documents. -/
  json : Bool := false
  /-- Whether the shader source is written. -/
  source : Bool := false
  /-- The keys that are pressed. -/
  press : List String := []
  deriving DecidableEq

/-- Why a command line is refused. -/
inductive UsageError where
  /-- There is no such option. -/
  | unknown (arg : String)
  /-- An option lacks its value. -/
  | noValue (arg : String)
  /-- An option that takes no value has one. -/
  | unexpectedValue (arg : String)
  /-- An option is given twice. -/
  | repeated (arg : String)
  /-- A path is empty. -/
  | emptyPath
  deriving DecidableEq

/-- The message of an error. -/
def UsageError.message : UsageError → String
  | .unknown arg => s!"unexpected argument '{arg}'"
  | .noValue arg => s!"'{arg}' needs a value"
  | .unexpectedValue arg => s!"'{arg}' takes no value"
  | .repeated arg => s!"'{arg}' is given more than once"
  | .emptyPath => "a path is empty"

/-- The options without a value. -/
inductive Switch where
  /-- Lists filters. -/
  | list
  /-- Writes documents. -/
  | json
  /-- Writes shader sources. -/
  | source
  deriving DecidableEq

/-- The options with a value. -/
inductive Valued where
  /-- Chooses the configuration file. -/
  | config
  /-- Adds a folder. -/
  | dir
  /-- Adds extensions, separated by commas. -/
  | ext
  /-- Presses a key. -/
  | press
  deriving DecidableEq

/-- What an argument is. -/
inductive Argument where
  /-- A file. -/
  | file
  /-- The end of the options. -/
  | endOfOptions
  /-- An option without a value. -/
  | switch (s : Switch)
  /-- An option with a value, which may be part of the argument. -/
  | valued (s : Valued) (value : Option String)

/-- The option of a long name. -/
def long? (name : String) : Option (Switch ⊕ Valued) :=
  [("list", .inl .list), ("json", .inl .json), ("source", .inl .source), ("config", .inr .config),
    ("dir", .inr .dir), ("ext", .inr .ext), ("press", .inr .press)].lookup name

/-- The option of a short name; all of these take a value. -/
def short? (c : Char) : Option Valued := [('c', .config), ('d', .dir)].lookup c

/-- Drops one equals sign. -/
def dropEquals : List Char → List Char
  | '=' :: cs => cs
  | cs => cs

/-- Reads one argument. -/
def Argument.read (arg : String) : Except UsageError Argument :=
  match arg.toList with
  | ['-', '-'] => .ok .endOfOptions
  | '-' :: '-' :: cs =>
    let name := String.ofList (cs.takeWhile (· != '='))
    let value := cs.dropWhile (· != '=')
    match long? name with
    | none => .error (.unknown arg)
    | some (.inl s) => if value = [] then .ok (.switch s) else .error (.unexpectedValue arg)
    | some (.inr s) =>
      .ok (.valued s (if value = [] then none else some (String.ofList (dropEquals value))))
  | '-' :: c :: cs =>
    match short? c with
    | none => .error (.unknown arg)
    | some s => .ok (.valued s (if cs = [] then none else some (String.ofList (dropEquals cs))))
  | _ => .ok .file

/-- Whether an argument can be the value of the option before it. -/
def isValue (arg : String) : Bool :=
  match arg.toList with
  | '-' :: _ :: _ => false
  | _ => true

namespace Options

/-- Takes a file in. -/
def addFile (o : Options) (path : String) : Except UsageError Options :=
  if path = "" then .error .emptyPath else .ok { o with files := o.files ++ [path] }

/-- Takes an option without a value in. -/
def addSwitch (o : Options) (arg : String) : Switch → Except UsageError Options
  | .list => if o.list then .error (.repeated arg) else .ok { o with list := true }
  | .json => if o.json then .error (.repeated arg) else .ok { o with json := true }
  | .source => if o.source then .error (.repeated arg) else .ok { o with source := true }

/-- Takes an option with its value in. -/
def addValued (o : Options) (arg value : String) : Valued → Except UsageError Options
  | .config =>
    if o.config.isSome then .error (.repeated arg)
    else if value = "" then .error .emptyPath
    else .ok { o with config := some value }
  | .dir => if value = "" then .error .emptyPath else .ok { o with dirs := o.dirs ++ [value] }
  | .ext =>
    .ok { o with extensions := o.extensions ++ (Text.pieces ',' value.toList).map String.ofList }
  | .press => .ok { o with press := o.press ++ [value] }

/-- Takes arguments in. -/
def addAll (o : Options) : List String → Except UsageError Options
  | [] => .ok o
  | arg :: args => do
    match ← Argument.read arg with
    | .file => (← o.addFile arg).addAll args
    | .endOfOptions => args.foldlM addFile o
    | .switch s => (← o.addSwitch arg s).addAll args
    | .valued s (some value) => (← o.addValued arg value s).addAll args
    | .valued s none =>
      match args with
      | value :: args =>
        if isValue value then (← o.addValued arg value s).addAll args else throw (.noValue arg)
      | [] => throw (.noValue arg)

/-- Reads a command line. -/
def read (args : List String) : Except UsageError Options := addAll {} args

end Options

end ShaderFilter.Cli
