import ShaderFilter.Proofs.Actions
import ShaderFilter.Proofs.Literal
import ShaderFilter.Proofs.Run

/-!
# The last write wins

Directives write to the slots of a definition: to the action of a trigger of a parameter, to the
title, the description and the two flags. Many lines may write to one slot. What it holds in the
end is what the last of them says, and what an empty script has there if no line writes to it.

Which lines write to a slot is told from their text (`actionFields?`, `settingFields?`), and so
is what they write, except that the value of an action is read in the kind of its parameter. A
key is one slot however its lines spell it.
-/

namespace ShaderFilter

namespace Definition

/-- The action of a trigger of the first parameter with a name. -/
def action? (d : Definition) (name : String) (t : Trigger) : Option (Action Value) :=
  (d.parameter? name).bind (·.action? t)

variable {d : Definition}

@[simp] theorem action?_addLine (line name : String) (t : Trigger) :
    (d.addLine line).action? name t = d.action? name t := rfl

@[simp] theorem action?_attach (u : Texture) (name : String) (t : Trigger) :
    (d.change (.attach u)).action? name t = d.action? name t := rfl

@[simp] theorem action?_set (s : Setting) (name : String) (t : Trigger) :
    (d.change (.set s)).action? name t = d.action? name t := by
  rw [action?, parameter?_set, action?]

/-- A declaration gives no parameter an action, be the name new or taken. -/
theorem action?_declare {p : Parameter} (hp : ∀ t, p.action? t = none) (name : String)
    (t : Trigger) : (d.change (.declare p)).action? name t = d.action? name t := by
  rw [action?, parameter?_declare, action?]
  cases d.parameter? name with
  | some q => rfl
  | none => by_cases hn : p.name = name <;> simp [hn, hp]

/-- An action is given to one trigger of one parameter. -/
theorem action?_change_bind {b : Binding} {p : Parameter} (hp : d.parameter? b.parameter = some p)
    (hk : b.action.value.kind = p.kind) (name : String) (t : Trigger) :
    (d.change (.bind b)).action? name t =
      if b.parameter = name ∧ b.trigger = t then some b.action else d.action? name t := by
  rw [action?, parameter?_bind, action?]
  by_cases hn : b.parameter = name
  · subst hn
    simp [hp, Parameter.action?_bind hk]
  · simp [hn]

end Definition

namespace Script

/-! ### Which lines write -/

/-- What the last line that writes something writes. -/
def lastOf {α : Type} (write : String → Option α) (lines : List String) : Option α :=
  (lines.filterMap write).getLast?

theorem lastOf_snoc {α : Type} (write : String → Option α) (lines : List String) (line : String) :
    lastOf write (lines ++ [line]) = (write line).or (lastOf write lines) := by
  cases h : write line <;> simp [lastOf, List.filterMap_append, h]

/-- The trigger that a word means on a line with a directive. -/
def trigger? (directive : Directive) (word : String) : Option Trigger :=
  match directive with
  | .paramProp => (Slot.read? word).map .slot
  | .keybinding => (Key.read? word).map .key
  | _ => none

/-- Value and modification, as they are written, of the action that a line gives to a trigger of the
parameter with a name. -/
def actionFields? (name : String) (t : Trigger) (line : String) : Option (String × String) :=
  match Directive.classify? line with
  | some (directive, args) =>
    match Text.fields args with
    | parameter :: word :: field :: modification :: _ =>
      if parameter = name ∧ trigger? directive word = some t then some (field, modification)
      else none
    | _ => none
  | none => none

/-- The second field, and the text after the first comma, of a line that makes the setting with
a word. -/
def settingFields? (word line : String) : Option (String × String) :=
  match Directive.classify? line with
  | some (.setting, args) =>
    match Text.fields args with
    | w :: field :: _ => if Text.lower w = word then some (field, Text.tail args) else none
    | _ => none
  | _ => none

theorem actionFields?_of_none {line : String} (hc : Directive.classify? line = none) (name : String)
    (t : Trigger) : actionFields? name t line = none := by
  rw [actionFields?, hc]

theorem actionFields?_of_fields {line args parameter word field modification : String}
    {rest : List String} {directive : Directive}
    (hc : Directive.classify? line = some (directive, args))
    (hf : Text.fields args = parameter :: word :: field :: modification :: rest) (name : String)
    (t : Trigger) :
    actionFields? name t line =
      if parameter = name ∧ trigger? directive word = some t then some (field, modification)
      else none := by
  rw [actionFields?, hc]
  simp only [hf]

theorem actionFields?_of_other {line args : String} {directive : Directive}
    (hc : Directive.classify? line = some (directive, args))
    (hd : ∀ word, trigger? directive word = none) (name : String) (t : Trigger) :
    actionFields? name t line = none := by
  rw [actionFields?, hc]
  simp only [hd]
  split <;> simp

theorem settingFields?_of_other {line : String}
    (hc : ∀ args, Directive.classify? line ≠ some (.setting, args)) (word : String) :
    settingFields? word line = none := by
  unfold settingFields?
  split
  · exact absurd ‹_› (hc _)
  · rfl

/-! ### Actions -/

/-- A value and a modification are what these fields say. -/
def WrittenAs (fields : String × String) (a : Action Value) : Prop :=
  Value.read? a.value.kind fields.1 = some a.value ∧
    Modification.read? fields.2 = some a.modification

/-- What a line writes that gives an action to a parameter. -/
theorem actionFields?_of_says {d : Definition} {line : String} {b : Binding}
    (h : d.Says line (.bind b)) :
    ∃ p fields, d.parameter? b.parameter = some p ∧ b.action.value.kind = p.kind ∧
      WrittenAs fields b.action ∧
      ∀ name t, actionFields? name t line =
        if b.parameter = name ∧ b.trigger = t then some fields else none := by
  cases h with
  | @bindSlot args name word field modification rest p s m v hc hf hp hs hm hv =>
    have hk := Value.kind_of_read? hv
    refine ⟨p, (field, modification), hp, hk, ⟨hk ▸ hv, hm⟩, fun name t => ?_⟩
    simp [actionFields?_of_fields hc hf, trigger?, hs]
  | @bindKey args name word field modification rest p k m v hc hf hp hk hm hv =>
    have hkind := Value.kind_of_read? hv
    refine ⟨p, (field, modification), hp, hkind, ⟨hkind ▸ hv, hm⟩, fun name t => ?_⟩
    simp [actionFields?_of_fields hc hf, trigger?, hk]

/-- Every action is what the last line that writes it says. -/
def ActionsFollow (lines : List String) (d : Definition) : Prop :=
  ∀ name t, Option.Rel WrittenAs (lastOf (actionFields? name t) lines) (d.action? name t)

/-- A line that writes no action leaves them. -/
theorem ActionsFollow.other {lines : List String} {line : String} {d e : Definition}
    (h : ActionsFollow lines d) (hline : ∀ name t, actionFields? name t line = none)
    (he : ∀ name t, e.action? name t = d.action? name t) : ActionsFollow (lines ++ [line]) e := by
  intro name t
  rw [lastOf_snoc, hline, he]
  exact h name t

theorem ActionsFollow.snoc {lines : List String} {line : String} {d e : Definition}
    (h : ActionsFollow lines d) (hl : (d.step line).result = .ok e) :
    ActionsFollow (lines ++ [line]) e := by
  rcases Definition.result_step_eq_ok.1 hl with ⟨hc, rfl⟩ | ⟨c, hs, rfl⟩
  · exact h.other (actionFields?_of_none hc) (by simp)
  · cases c with
    | declare p =>
      cases hs with
      | declare hc hf hn hk hr =>
        have hp := Parameter.action?_of_readControl hr
        exact h.other (actionFields?_of_other hc fun _ => rfl)
          (by simp [Definition.action?_declare, hp])
    | attach t =>
      cases hs with
      | attach hc => exact h.other (actionFields?_of_other hc fun _ => rfl) (by simp)
    | set s =>
      cases hs with
      | set hc => exact h.other (actionFields?_of_other hc fun _ => rfl) (by simp)
    | bind b =>
      obtain ⟨p, fields, hp, hk, hw, hline⟩ := actionFields?_of_says hs
      intro name t
      rw [lastOf_snoc, hline, Definition.action?_addLine, Definition.action?_change_bind hp hk]
      split
      · exact .some hw
      · exact h name t

/-- Every setting is what the last line that makes it says. -/
structure SettingsFollow (name : String) (lines : List String) (d : Definition) : Prop where
  /-- The title is the text after the first comma. -/
  title : d.name = ((lastOf (settingFields? "title") lines).map (·.2)).getD name
  /-- The description is the text after the first comma. -/
  description : d.description = ((lastOf (settingFields? "description") lines).map (·.2)).getD ""
  /-- The second field says whether the filter is separable: it does if it is the word for true. -/
  separable : d.separable =
    ((lastOf (settingFields? "sepa") lines).map fun s =>
      decide (Text.lower s.1 = "true")).getD false
  /-- The second field says whether one invocation is enough, likewise. -/
  singleInvocation : d.singleInvocation =
    ((lastOf (settingFields? "singleinvocation") lines).map fun s =>
      decide (Text.lower s.1 = "true")).getD true

/-- A line that is no setting leaves all settings. -/
theorem SettingsFollow.other {name line : String} {lines : List String} {d e : Definition}
    (h : SettingsFollow name lines d)
    (hc : ∀ args, Directive.classify? line ≠ some (.setting, args))
    (hname : e.name = d.name) (hdescription : e.description = d.description)
    (hseparable : e.separable = d.separable)
    (hsingle : e.singleInvocation = d.singleInvocation) :
    SettingsFollow name (lines ++ [line]) e := by
  have hlast (word : String) :
      lastOf (settingFields? word) (lines ++ [line]) = lastOf (settingFields? word) lines := by
    rw [lastOf_snoc, settingFields?_of_other hc, Option.none_or]
  constructor
  · rw [hlast, hname, h.title]
  · rw [hlast, hdescription, h.description]
  · rw [hlast, hseparable, h.separable]
  · rw [hlast, hsingle, h.singleInvocation]

theorem SettingsFollow.snoc {name line : String} {lines : List String} {d e : Definition}
    (h : SettingsFollow name lines d) (hl : (d.step line).result = .ok e) :
    SettingsFollow name (lines ++ [line]) e := by
  rcases Definition.result_step_eq_ok.1 hl with ⟨hc, rfl⟩ | ⟨c, hs, rfl⟩
  · exact h.other (by simp [hc]) rfl rfl rfl rfl
  · cases hs with
    | @set args w field rest s hc hf hs =>
      have hlast (word : String) : lastOf (settingFields? word) (lines ++ [line]) =
          if Text.lower w = word then some (field, Text.tail args)
          else lastOf (settingFields? word) lines := by
        rw [lastOf_snoc, settingFields?, hc]
        simp only [hf]
        split <;> simp
      rw [Text.keyword?_eq_some (by decide)] at hs
      simp only [settings, List.mem_cons, Prod.mk.injEq, List.not_mem_nil, or_false] at hs
      rcases hs with ⟨hw, rfl⟩ | ⟨hw, rfl⟩ | ⟨hw, rfl⟩ | ⟨hw, rfl⟩ <;>
        constructor <;>
        simp [hlast, hw, Definition.change, Definition.set, Definition.addLine, h.title,
          h.description, h.separable, h.singleInvocation, isTrue, beq_eq_decide]
    | declare hc => exact h.other (by simp [hc]) rfl rfl rfl rfl
    | attach hc => exact h.other (by simp [hc]) rfl rfl rfl rfl
    | bindSlot hc => exact h.other (by simp [hc]) rfl rfl rfl rfl
    | bindKey hc => exact h.other (by simp [hc]) rfl rfl rfl rfl

end Script

end ShaderFilter
