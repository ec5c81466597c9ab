import ShaderFilter.Directive.Reading
import ShaderFilter.Log

/-!
# The loader

A loader holds the definition of a filter while its script is read. Each directive is a
computation of the loader that reads its fields one after the other and changes the definition
on the way; it may be refused at every field. A refusal ends the computation where it stands:
what has been changed or noted by then stays.
-/

namespace ShaderFilter

open Log (Record)
open Number (Word)

/-- A script under way. -/
structure Loader where
  /-- The definition so far. -/
  definition : Definition
  /-- The records noted so far, the first one first. -/
  records : List Record

/-- A computation of a loader. -/
abbrev Loading := EStateM DirectiveError Loader

/-- A record of the loader. -/
def loaderRecord (level : Log.Level) (message : String) : Record := ⟨level, .loader, message⟩

namespace Definition

/-- Makes a setting. -/
def set (d : Definition) : Setting → Definition
  | .title text => { d with name := text }
  | .description text => { d with description := text }
  | .separable flag => { d with separable := flag }
  | .singleInvocation flag => { d with singleInvocation := flag }

/-- Adds a line to the shader source. -/
def addLine (d : Definition) (line : String) : Definition :=
  { d with source := d.source ++ line ++ "\n" }

/-- No texture has a binding. -/
def Free (d : Definition) (binding : Word) : Prop := ∀ t ∈ d.textures, t.binding ≠ binding

instance (d : Definition) (binding : Word) : Decidable (d.Free binding) :=
  inferInstanceAs (Decidable (∀ t ∈ d.textures, t.binding ≠ binding))

/-- The warning about a declaration whose name is taken. -/
def takenWarning (d : Definition) (name : String) : List Record :=
  if (d.parameter? name).isSome then
    [loaderRecord .warn (s!"parameter '{name}' declared more than once; " ++
      "references resolve to the first declaration")]
  else []

end Definition

namespace Loader

/-! ### Elementary computations -/

/-- The definition so far. -/
def current : Loading Definition := do
  return (← get).definition

/-- Changes the definition. -/
def update (f : Definition → Definition) : Loading Unit :=
  modify fun l => { l with definition := f l.definition }

/-- Notes records. -/
def note (records : List Record) : Loading Unit :=
  modify fun l => { l with records := l.records ++ records }

/-- Goes on with the result of a reading, or is refused with its error. -/
def accept {α : Type} : Except DirectiveError α → Loading α
  | .ok a => pure a
  | .error e => throw e

/-- Is refused where `c` does not hold. -/
def ensure (c : Prop) [Decidable c] (e : DirectiveError) : Loading Unit :=
  if c then pure () else throw e

@[simp] theorem run_current (l : Loader) : current.run l = .ok l.definition l := rfl

@[simp] theorem run_update (f : Definition → Definition) (l : Loader) :
    (update f).run l = .ok () { l with definition := f l.definition } := rfl

@[simp] theorem run_note (records : List Record) (l : Loader) :
    (note records).run l = .ok () { l with records := l.records ++ records } := rfl

@[simp] theorem run_accept_ok {α : Type} (a : α) (l : Loader) :
    (accept (.ok a)).run l = .ok a l := rfl

@[simp] theorem run_accept_error {α : Type} (e : DirectiveError) (l : Loader) :
    (accept (.error e) : Loading α).run l = .error e l := rfl

theorem run_ensure {c : Prop} [Decidable c] (e : DirectiveError) (l : Loader) :
    (ensure c e).run l = if c then .ok () l else .error e l := by
  unfold ensure
  split <;> rfl

/-! ### The directives -/

/-- Declares a parameter. A taken name is warned about before default and bounds are read. -/
def declare : List String → Loading Unit
  | name :: location :: kind :: rest => do
    let location ← accept (readIndex .location location)
    let kind ← accept (readKind kind)
    note ((← current).takenWarning name)
    let control ← accept (readControl kind rest)
    note [loaderRecord .debug s!"#param {name} ({kind.name}) at location {location.text}"]
    update fun d => { d with parameters := d.parameters ++ [⟨name, location, control⟩] }
  | fields => throw (.notEnoughArguments .param 3 fields.length)

/-- Declares a texture. -/
def attach : List String → Loading Unit
  | name :: binding :: _ => do
    let binding ← accept (readIndex .binding binding)
    ensure (binding ≠ Word.zero) .reservedBinding
    ensure ((← current).Free binding) (.duplicateBinding binding)
    note [loaderRecord .debug s!"#texture {name} at binding {binding.text}"]
    update fun d => { d with textures := d.textures ++ [⟨name, binding⟩] }
  | fields => throw (.notEnoughArguments .texture 2 fields.length)

/-- Makes a setting from its fields and the text after the first comma. -/
def arrange (fields : List String) (text : String) : Loading Unit :=
  match fields with
  | word :: field :: _ => do
    let setting ← accept (readSettingWord word)
    update (·.set (setting field text))
  | fields => throw (.notEnoughArguments .setting 2 fields.length)

/-- The number of the first parameter with a name. -/
def resolve (name : String) : Loading Nat := do
  let d ← current
  accept (orError (d.parameters.findIdx? (·.name == name)) (.unresolvedParameter name))

/-- Gives parameter number `i` an action whose value is written in a field. -/
def store (i : Nat) (t : Trigger) (field : String) (m : Modification) : Loading Unit := do
  match (← current).parameters[i]? with
  | some p =>
    let value ← accept (readValue p.kind field)
    update fun d => { d with parameters := d.parameters.set i (p.bind t ⟨value, m⟩) }
  | none => pure ()

/-- What is noted about an action. -/
def actionRecord (directive : Directive) (name : String) (t : Trigger) (field : String)
    (m : Modification) : Record :=
  loaderRecord .debug s!"{directive.marker} {name} {t.name} {field} {m.title}"

/-- Gives a parameter an action on a slot. The name and the slot are looked at before the count
of the fields. -/
def bindSlot (fields : List String) : Loading Unit :=
  match fields with
  | name :: slot :: rest => do
    let i ← resolve name
    let slot ← accept (readSlot slot)
    match rest with
    | field :: modification :: _ =>
      let modification ← accept (readModification modification)
      store i (.slot slot) field modification
      note [actionRecord .paramProp name (.slot slot) field modification]
    | _ => throw (.notEnoughArguments .paramProp 4 fields.length)
  | _ => throw (.notEnoughArguments .paramProp 2 fields.length)

/-- Gives a parameter an action on a key. -/
def bindKey : List String → Loading Unit
  | name :: key :: field :: modification :: _ => do
    let i ← resolve name
    let modification ← accept (readModification modification)
    let key ← accept (readKey key)
    store i (.key key) field modification
    note [actionRecord .keybinding name (.key key) field modification]
  | fields => throw (.notEnoughArguments .keybinding 4 fields.length)

/-- Takes a directive in. -/
def obey (directive : Directive) (args : String) : Loading Unit :=
  match directive with
  | .param => declare (Text.fields args)
  | .paramProp => bindSlot (Text.fields args)
  | .texture => attach (Text.fields args)
  | .setting => arrange (Text.fields args) (Text.tail args)
  | .keybinding => bindKey (Text.fields args)

/-- Takes a line in. A directive leaves a blank line in the source once it has been obeyed. -/
def takeLine (line : String) : Loading Unit :=
  match Directive.classify? line with
  | none => update (·.addLine line)
  | some (directive, args) => do
    obey directive args
    update (·.addLine "")

end Loader

end ShaderFilter
