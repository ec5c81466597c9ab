/-!
# Log records

A computation that notes what it does gives its records beside its result, which may be an error. The
records of a failing computation are those noted before the failure.
-/

namespace ShaderFilter

namespace Log

/-- The levels of records, the most severe one first. -/
inductive Level where
  /-- A failure. -/
  | error
  /-- Something that is probably not meant. -/
  | warn
  /-- A finished task. -/
  | info
  /-- A detail. -/
  | debug
  deriving DecidableEq

namespace Level

/-- The name of a level. -/
def name : Level → String
  | .error => "ERROR"
  | .warn => "WARN"
  | .info => "INFO"
  | .debug => "DEBUG"

/-- The severest level has the number 1; greater numbers are less severe. -/
def number : Level → Nat
  | .error => 1
  | .warn => 2
  | .info => 3
  | .debug => 4

end Level

/-- The parts of the program that note records. -/
inductive Part where
  /-- The command line. -/
  | program
  /-- The configuration. -/
  | config
  /-- The reader of filter scripts. -/
  | loader
  /-- The collection of filter files. -/
  | library
  /-- The hand-over to a shader compiler. -/
  | compiler
  deriving DecidableEq

/-- The name of a part in the log. -/
def Part.target : Part → String
  | .program => "filterscript"
  | .config => "filterscript::config"
  | .loader => "filterscript::filter::loader"
  | .library => "filterscript::filter::library"
  | .compiler => "filterscript::filter::compiler"

/-- One entry of the log. -/
structure Record where
  /-- How severe it is. -/
  level : Level
  /-- The part that noted it. -/
  part : Part
  /-- What it says. -/
  message : String
  deriving DecidableEq

end Log

/-- A result or an error, with the records noted on the way. -/
structure Logged (ε α : Type) where
  /-- The records, the first one first. -/
  records : List Log.Record
  /-- The result or the error. -/
  result : Except ε α

namespace Logged

variable {ε α β : Type}

/-- Continues with the result; an error ends the computation. -/
def andThen (x : Logged ε α) (f : α → Logged ε β) : Logged ε β :=
  match x.result with
  | .ok a => ⟨x.records ++ (f a).records, (f a).result⟩
  | .error e => ⟨x.records, .error e⟩

instance : Monad (Logged ε) where
  pure a := ⟨[], .ok a⟩
  bind := andThen

/-- Notes records. -/
def note (records : List Log.Record) : Logged ε Unit := ⟨records, .ok ()⟩

/-- A computation that notes nothing. -/
def quiet (result : Except ε α) : Logged ε α := ⟨[], result⟩

/-- Turns the error into another one. -/
def mapError {ε' : Type} (f : ε → ε') (x : Logged ε α) : Logged ε' α :=
  ⟨x.records, x.result.mapError f⟩

@[simp] theorem records_pure (a : α) : (pure a : Logged ε α).records = [] := rfl

@[simp] theorem result_pure (a : α) : (pure a : Logged ε α).result = .ok a := rfl

@[simp] theorem result_bind (x : Logged ε α) (f : α → Logged ε β) :
    (x >>= f).result = x.result >>= fun a => (f a).result := by
  cases h : x.result <;> simp [bind, andThen, Except.bind, h]

end Logged

end ShaderFilter
