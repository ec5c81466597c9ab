import ShaderFilter.Script

/-!
# Changes

A directive can be taken in two stages. Reading it against a definition gives the change that it
makes, or the reason why it is refused; making the change then cannot fail. The loader does both
in one go and changes its definition between two fields if it likes. `Loader.run_takeLine` says
that it does not: what a line does to a loader is to be read against the definition from before
the line, and then to make its change, if there is one.

What reading looks at in the definition are the kinds of the declared parameters and the
bindings of the declared textures.
-/

namespace ShaderFilter

open Log (Record)
open Number (Word)

/-- An action that is given to a parameter. -/
structure Binding where
  /-- The name of the parameter. -/
  parameter : String
  /-- What fires the action. -/
  trigger : Trigger
  /-- The value of the action as it is written. -/
  field : String
  /-- The action. -/
  action : Action Value
  deriving DecidableEq

/-- The effect of a directive. -/
inductive Change where
  /-- Declares a parameter. -/
  | declare (p : Parameter)
  /-- Declares a texture. -/
  | attach (t : Texture)
  /-- Makes a setting. -/
  | set (s : Setting)
  /-- Gives a parameter an action. -/
  | bind (b : Binding)
  deriving DecidableEq

/-! ### Reading -/

/-- Reads the declaration of a parameter. -/
def readDeclaration : List String → Except DirectiveError Change
  | name :: location :: kind :: rest => do
    let location ← readIndex .location location
    let kind ← readKind kind
    let control ← readControl kind rest
    pure (.declare ⟨name, location, control⟩)
  | fields => .error (.notEnoughArguments .param 3 fields.length)

/-- Reads a setting from its fields and the text after the first comma. -/
def readSetting (fields : List String) (text : String) : Except DirectiveError Change :=
  match fields with
  | word :: field :: _ => do
    let setting ← readSettingWord word
    pure (.set (setting field text))
  | fields => .error (.notEnoughArguments .setting 2 fields.length)

namespace Definition

/-- The kind of the parameter with a name. -/
def kindOf (d : Definition) (name : String) : Except DirectiveError Kind :=
  orError ((d.parameter? name).map Parameter.kind) (.unresolvedParameter name)

/-- Reads the declaration of a texture. -/
def readTexture (d : Definition) : List String → Except DirectiveError Change
  | name :: binding :: _ => do
    let binding ← readIndex .binding binding
    if binding = Word.zero then .error .reservedBinding
    else if d.Free binding then .ok (.attach ⟨name, binding⟩)
    else .error (.duplicateBinding binding)
  | fields => .error (.notEnoughArguments .texture 2 fields.length)

/-- Reads an action on a slot. -/
def readSlotAction (d : Definition) (fields : List String) : Except DirectiveError Change :=
  match fields with
  | name :: slot :: rest => do
    let kind ← d.kindOf name
    let slot ← readSlot slot
    match rest with
    | field :: modification :: _ =>
      let modification ← readModification modification
      let value ← readValue kind field
      pure (.bind ⟨name, .slot slot, field, ⟨value, modification⟩⟩)
    | _ => .error (.notEnoughArguments .paramProp 4 fields.length)
  | _ => .error (.notEnoughArguments .paramProp 2 fields.length)

/-- Reads an action on a key. -/
def readKeyAction (d : Definition) : List String → Except DirectiveError Change
  | name :: key :: field :: modification :: _ => do
    let kind ← d.kindOf name
    let modification ← readModification modification
    let key ← readKey key
    let value ← readValue kind field
    pure (.bind ⟨name, .key key, field, ⟨value, modification⟩⟩)
  | fields => .error (.notEnoughArguments .keybinding 4 fields.length)

/-- Reads a directive with its arguments. -/
def read (d : Definition) (directive : Directive) (args : String) : Except DirectiveError Change :=
  match directive with
  | .param => readDeclaration (Text.fields args)
  | .paramProp => d.readSlotAction (Text.fields args)
  | .texture => d.readTexture (Text.fields args)
  | .setting => readSetting (Text.fields args) (Text.tail args)
  | .keybinding => d.readKeyAction (Text.fields args)

/-! ### Making changes -/

/-- Changes the first parameter with a name. -/
def updateFirst (name : String) (f : Parameter → Parameter) : List Parameter → List Parameter
  | [] => []
  | p :: ps => if p.name = name then f p :: ps else p :: updateFirst name f ps

/-- Makes a change. -/
def change (d : Definition) : Change → Definition
  | .declare p => { d with parameters := d.parameters ++ [p] }
  | .attach t => { d with textures := d.textures ++ [t] }
  | .set s => d.set s
  | .bind b =>
    { d with parameters := updateFirst b.parameter (·.bind b.trigger b.action) d.parameters }

end Definition

/-! ### What a change leaves as it was -/

/-- An action leaves a parameter its kind. -/
@[simp] theorem Parameter.kind_bind (p : Parameter) (t : Trigger) (a : Action Value) :
    (p.bind t a).kind = p.kind := by
  obtain ⟨name, location, control⟩ := p
  cases control <;> rfl

namespace Definition

theorem find?_updateFirst {name other : String} {f : Parameter → Parameter} {ps : List Parameter}
    (hf : ∀ p, (f p).name = p.name) :
    (updateFirst other f ps).find? (·.name == name) =
      (ps.find? (·.name == name)).map fun p => if other = name then f p else p := by
  induction ps with
  | nil => rfl
  | cons p ps ih =>
    by_cases ho : p.name = other
    · by_cases hn : other = name <;> simp [updateFirst, ho, hn, hf]
    · by_cases hn : p.name = name
      · have hne : name ≠ other := fun h => ho (hn.trans h)
        simp [updateFirst, hn, hne, hne.symm]
      · simp [updateFirst, ho, hn, ih]

/-- What a change of a parameter leaves as it was, it leaves as it was in all of them. -/
theorem map_updateFirst {β : Type} {g : Parameter → β} {name : String} {f : Parameter → Parameter}
    {ps : List Parameter} (hf : ∀ p, g (f p) = g p) : (updateFirst name f ps).map g = ps.map g := by
  induction ps with
  | nil => rfl
  | cons p ps ih =>
    unfold updateFirst
    split <;> simp [hf, ih]

theorem parameter?_declare (d : Definition) (p : Parameter) (name : String) :
    (d.change (.declare p)).parameter? name =
      (d.parameter? name).or (if p.name = name then some p else none) := by
  by_cases hp : p.name = name <;> simp [parameter?, change, List.find?_append, hp]

theorem parameter?_bind (d : Definition) (b : Binding) (name : String) :
    (d.change (.bind b)).parameter? name =
      (d.parameter? name).map fun p =>
        if b.parameter = name then p.bind b.trigger b.action else p :=
  find?_updateFirst fun _ => rfl

@[simp] theorem parameter?_attach (d : Definition) (t : Texture) (name : String) :
    (d.change (.attach t)).parameter? name = d.parameter? name := rfl

@[simp] theorem parameters_set (d : Definition) (s : Setting) :
    (d.change (.set s)).parameters = d.parameters := by
  cases s <;> rfl

@[simp] theorem textures_set (d : Definition) (s : Setting) :
    (d.change (.set s)).textures = d.textures := by
  cases s <;> rfl

@[simp] theorem parameters_addLine (d : Definition) (line : String) :
    (d.addLine line).parameters = d.parameters := rfl

@[simp] theorem textures_addLine (d : Definition) (line : String) :
    (d.addLine line).textures = d.textures := rfl

@[simp] theorem parameter?_set (d : Definition) (s : Setting) (name : String) :
    (d.change (.set s)).parameter? name = d.parameter? name := by
  cases s <;> rfl

@[simp] theorem parameter?_addLine (d : Definition) (line name : String) :
    (d.addLine line).parameter? name = d.parameter? name := rfl

/-- An action leaves all parameters their kinds. -/
theorem kind_parameter?_bind (d : Definition) (b : Binding) (name : String) :
    ((d.change (.bind b)).parameter? name).map Parameter.kind =
      (d.parameter? name).map Parameter.kind := by
  rw [parameter?_bind, Option.map_map]
  congr 1
  funext p
  by_cases hb : b.parameter = name <;> simp [hb]

@[simp] theorem free_addLine (d : Definition) (line : String) (b : Word) :
    (d.addLine line).Free b ↔ d.Free b := Iff.rfl

theorem free_attach (d : Definition) (t : Texture) (b : Word) :
    (d.change (.attach t)).Free b ↔ d.Free b ∧ t.binding ≠ b := by
  simp only [Free, change, List.forall_mem_append, List.forall_mem_singleton]

@[simp] theorem free_set (d : Definition) (s : Setting) (b : Word) :
    (d.change (.set s)).Free b ↔ d.Free b := by
  cases s <;> rfl

end Definition

/-! ### What is noted -/

/-- What the loader notes of a change. -/
def Change.records : Change → List Record
  | .declare p =>
    [loaderRecord .debug s!"#param {p.name} ({p.kind.name}) at location {p.location.text}"]
  | .attach t => [loaderRecord .debug s!"#texture {t.name} at binding {t.binding.text}"]
  | .set _ => []
  | .bind b =>
    let directive := match b.trigger with
      | .slot _ => Directive.paramProp
      | .key _ => Directive.keybinding
    [Loader.actionRecord directive b.parameter b.trigger b.field b.action.modification]

namespace Definition

/-- The warning about a declaration whose name is taken. It is given as soon as the first three
fields are read, whether or not the other ones can be read. -/
def declarationWarnings (d : Definition) : List String → List Record
  | name :: location :: kind :: _ =>
    match Word.read? location, Kind.read? kind with
    | some _, some _ => d.takenWarning name
    | _, _ => []
  | _ => []

/-- What the loader notes before it knows whether a directive is refused. -/
def warnings (d : Definition) (directive : Directive) (args : String) : List Record :=
  match directive with
  | .param => d.declarationWarnings (Text.fields args)
  | _ => []

end Definition

/-! ### The loader reads a line, then makes its change -/

theorem kind_of_readControl {k : Kind} {fields : List String} {c : AnyControl}
    (h : readControl k fields = .ok c) (name : String) (location : Word) :
    (Parameter.mk name location c).kind = k := by
  cases k <;> (obtain ⟨c, -, rfl⟩ := map_eq_ok.1 h; rfl)

theorem updateFirst_eq_set {name : String} {f : Parameter → Parameter} {ps : List Parameter}
    {i : Nat} (h : ps.findIdx? (·.name == name) = some i) {p : Parameter} (hp : ps[i]? = some p) :
    Definition.updateFirst name f ps = ps.set i (f p) := by
  induction ps generalizing i with
  | nil => simp at hp
  | cons q qs ih =>
    rw [List.findIdx?_cons] at h
    by_cases hq : q.name = name
    · simp only [hq, BEq.rfl, if_true, Option.some.injEq] at h
      subst h
      simp only [List.getElem?_cons_zero, Option.some.injEq] at hp
      subst hp
      simp [Definition.updateFirst, hq]
    · simp only [beq_eq_false_iff_ne.2 hq, Bool.false_eq_true, if_false,
        Option.map_eq_some_iff] at h
      obtain ⟨j, hj, rfl⟩ := h
      simp [Definition.updateFirst, hq, ih hj (by simpa using hp)]

/-- The first parameter with a name is the one that stands at the number of the name. -/
theorem Definition.parameter?_eq_getElem? (d : Definition) (name : String) :
    d.parameter? name = (d.parameters.findIdx? (·.name == name)).bind (d.parameters[·]?) := by
  unfold Definition.parameter?
  induction d.parameters with
  | nil => rfl
  | cons q qs ih =>
    by_cases hq : q.name = name
    · simp [List.findIdx?_cons, hq]
    · simp only [List.find?_cons, List.findIdx?_cons, beq_eq_false_iff_ne.2 hq, ih]
      cases qs.findIdx? (·.name == name) <;> simp

namespace Loader

/-- What a loader becomes by a reading that has noted `warnings`. -/
def settle (l : Loader) (warnings : List Record) :
    Except DirectiveError Change → EStateM.Result DirectiveError Loader Unit
  | .ok c => .ok () ⟨l.definition.change c, l.records ++ warnings ++ c.records⟩
  | .error e => .error e { l with records := l.records ++ warnings }

theorem run_declare (l : Loader) (fields : List String) :
    (declare fields).run l =
      l.settle (l.definition.declarationWarnings fields) (readDeclaration fields) := by
  match fields with
  | [] | [_] | [_, _] => simp [declare, readDeclaration, Definition.declarationWarnings, settle]
  | name :: location :: kind :: rest =>
    simp only [declare, readDeclaration, Definition.declarationWarnings, readIndex, readKind]
    cases Word.read? location with
    | none => simp [orError, settle]
    | some location =>
      cases Kind.read? kind with
      | none => simp [orError, settle]
      | some k =>
        cases hc : readControl k rest with
        | error e => simp [orError, settle, hc]
        | ok c =>
          simp [orError, settle, hc, kind_of_readControl hc, Change.records, Definition.change]

theorem run_attach (l : Loader) (fields : List String) :
    (attach fields).run l = l.settle [] (l.definition.readTexture fields) := by
  match fields with
  | [] | [_] => simp [attach, Definition.readTexture, settle]
  | name :: binding :: _ =>
    simp only [attach, Definition.readTexture, readIndex]
    cases Word.read? binding with
    | none => simp [orError, settle]
    | some b =>
      by_cases hz : b = Word.zero
      · simp [orError, settle, run_ensure, hz]
      · by_cases hd : l.definition.Free b
        · simp [orError, settle, run_ensure, hz, hd, Change.records, Definition.change]
        · simp [orError, settle, run_ensure, hz, hd]

theorem run_arrange (l : Loader) (fields : List String) (text : String) :
    (arrange fields text).run l = l.settle [] (readSetting fields text) := by
  match fields with
  | [] | [_] => simp [arrange, readSetting, settle]
  | word :: field :: _ =>
    simp only [arrange, readSetting]
    cases readSettingWord word with
    | error e => simp [settle]
    | ok setting => simp [settle, Change.records, Definition.change]

/-- A name resolves to the number of the first parameter with this name, if there is one. -/
theorem run_resolve (l : Loader) (name : String) :
    (l.definition.kindOf name = .error (.unresolvedParameter name) ∧
      (resolve name).run l = .error (.unresolvedParameter name) l) ∨
    ∃ i p, l.definition.parameters[i]? = some p ∧ l.definition.kindOf name = .ok p.kind ∧
      (∀ f, Definition.updateFirst name f l.definition.parameters =
        l.definition.parameters.set i (f p)) ∧
      (resolve name).run l = .ok i l := by
  have hp := l.definition.parameter?_eq_getElem? name
  cases hi : l.definition.parameters.findIdx? (·.name == name) with
  | none =>
    rw [hi] at hp
    left
    exact ⟨by simp [Definition.kindOf, orError, hp], by simp [resolve, hi, orError]⟩
  | some i =>
    rw [hi] at hp
    right
    have hlt : i < l.definition.parameters.length := (List.findIdx?_eq_some_iff_getElem.1 hi).1
    have hg : l.definition.parameters[i]? = some l.definition.parameters[i] :=
      List.getElem?_eq_getElem hlt
    refine ⟨i, l.definition.parameters[i], hg, ?_, fun f => updateFirst_eq_set hi hg, ?_⟩
    · simp [Definition.kindOf, orError, hp, hg]
    · simp [resolve, hi, orError]

theorem run_bindSlot (l : Loader) (fields : List String) :
    (bindSlot fields).run l = l.settle [] (l.definition.readSlotAction fields) := by
  match fields with
  | [] | [_] => simp [bindSlot, Definition.readSlotAction, settle]
  | name :: slot :: rest =>
    simp only [bindSlot, Definition.readSlotAction]
    rcases run_resolve l name with ⟨hk, hr⟩ | ⟨i, p, hg, hk, hu, hr⟩
    · simp [hk, hr, settle]
    · cases readSlot slot with
      | error e => simp [hk, hr, settle]
      | ok slot =>
        match rest with
        | [] | [_] => simp [hk, hr, settle]
        | field :: modification :: _ =>
          cases hm : readModification modification with
          | error e => simp [hk, hr, settle, hm]
          | ok m =>
            cases hv : readValue p.kind field with
            | error e => simp [hk, hr, settle, hm, store, hg, hv]
            | ok v =>
              simp [hk, hr, settle, hm, store, hg, hv, hu, Change.records, Definition.change]

theorem run_bindKey (l : Loader) (fields : List String) :
    (bindKey fields).run l = l.settle [] (l.definition.readKeyAction fields) := by
  match fields with
  | [] | [_] | [_, _] | [_, _, _] => simp [bindKey, Definition.readKeyAction, settle]
  | name :: key :: field :: modification :: _ =>
    simp only [bindKey, Definition.readKeyAction]
    rcases run_resolve l name with ⟨hk, hr⟩ | ⟨i, p, hg, hk, hu, hr⟩
    · simp [hk, hr, settle]
    · cases readModification modification with
      | error e => simp [hk, hr, settle]
      | ok m =>
        cases readKey key with
        | error e => simp [hk, hr, settle]
        | ok key =>
          cases hv : readValue p.kind field with
          | error e => simp [hk, hr, settle, store, hg, hv]
          | ok v => simp [hk, hr, settle, store, hg, hv, hu, Change.records, Definition.change]

/-- **A directive is read against the definition from before it, and only then changes it.** -/
theorem run_obey (l : Loader) (directive : Directive) (args : String) :
    (obey directive args).run l =
      l.settle (l.definition.warnings directive args) (l.definition.read directive args) := by
  cases directive with
  | param => exact run_declare l _
  | paramProp => exact run_bindSlot l _
  | texture => exact run_attach l _
  | setting => exact run_arrange l _ _
  | keybinding => exact run_bindKey l _

/-- What a line does to a loader. -/
theorem run_takeLine (l : Loader) (line : String) :
    (takeLine line).run l =
      match Directive.classify? line with
      | none => .ok () { l with definition := l.definition.addLine line }
      | some (directive, args) =>
        match l.definition.read directive args with
        | .ok c =>
          .ok () ⟨(l.definition.change c).addLine "",
            l.records ++ l.definition.warnings directive args ++ c.records⟩
        | .error e =>
          .error e { l with records := l.records ++ l.definition.warnings directive args } := by
  unfold takeLine
  cases Directive.classify? line with
  | none => rfl
  | some entry =>
    obtain ⟨directive, args⟩ := entry
    simp only [EStateM.run_bind, run_obey]
    cases l.definition.read directive args <;> simp [settle]

end Loader

namespace Definition

/-! ### Taking lines in -/

/-- The result of a line: its text in the source, or the change of its directive. -/
theorem result_step (d : Definition) (line : String) :
    (d.step line).result =
      match Directive.classify? line with
      | none => .ok (d.addLine line)
      | some (directive, args) => (fun c => (d.change c).addLine "") <$> d.read directive args := by
  unfold step
  rw [Loader.run_takeLine]
  cases Directive.classify? line with
  | none => rfl
  | some entry =>
    obtain ⟨directive, args⟩ := entry
    cases h : d.read directive args <;> simp [h]

theorem advance_of_ok {d e : Definition} {line : String} (h : (d.step line).result = .ok e) :
    d.advance line = e := by
  unfold step at h
  unfold advance
  cases hl : (Loader.takeLine line).run ⟨d, []⟩ with
  | ok _ l => simpa [hl] using h
  | error c l => simp [hl] at h

end Definition

end ShaderFilter
