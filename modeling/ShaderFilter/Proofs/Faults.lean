import ShaderFilter.Proofs.Classification
import ShaderFilter.Proofs.Grammar
import ShaderFilter.Proofs.Refusal

/-!
# Faults

A directive is refused with an error that names one fault: a field by its text, and what it should
have been. `HasFault` says of a directive, its fields and an error that this fault is there. It
speaks of the fields and of the definition so far, not of the order in which the loader looks at
them, so a line with several faults has several errors that would be true of it.

The loader states one of them (`hasFault_of_read`, reader by reader), and it states one whenever
there is one (`not_hasFault_of_read`).
-/

namespace ShaderFilter

open Number (Word)

/-! ### Where words and numbers stand -/

/-- How many fields a directive needs. -/
def Directive.needed : Directive → Nat
  | .param => 3
  | .paramProp => 4
  | .texture => 2
  | .setting => 2
  | .keybinding => 4

/-- How many fields behind the kind of a parameter are values of this kind: a bool parameter has
no bounds to state. -/
def Kind.stated : Kind → Nat
  | .bool => 1
  | _ => 3

namespace Vocabulary

/-- A word belongs to a vocabulary, in any case of letters. -/
def Has : Vocabulary → String → Prop
  | .kind, word => ∃ k : Kind, Text.lower word = k.name
  | .setting, word => Text.lower word ∈ ["sepa", "singleinvocation", "title", "description"]
  | .slot, word => ∃ s : Slot, Text.lower word = Text.lower s.name
  | .modification, word => ∃ m : Modification, Text.lower word = m.name

/-- The number of the field that holds a word of the vocabulary, counted from zero. -/
def place? : Vocabulary → Directive → Option Nat
  | .kind, .param => some 2
  | .setting, .setting => some 0
  | .slot, .paramProp => some 1
  | .modification, .paramProp => some 3
  | .modification, .keybinding => some 3
  | _, _ => none

end Vocabulary

/-! ### Faults -/

/-- A directive with these fields has the fault that an error states. -/
inductive HasFault (d : Definition) : Directive → List String → DirectiveError → Prop where
  /-- There are fewer fields than a number of them that the directive needs. -/
  | count {directive : Directive} {fields : List String} {expected : Nat} :
      fields.length < expected → expected ≤ directive.needed →
      HasFault d directive fields (.notEnoughArguments directive expected fields.length)
  /-- The field in the place of a word of a vocabulary is none. -/
  | word {directive : Directive} {fields : List String} {v : Vocabulary} {i : Nat}
      {field : String} : v.place? directive = some i → fields[i]? = some field → ¬ v.Has field →
      HasFault d directive fields (.unknownKeyword v field)
  /-- The location of a parameter is not an integer of 32 bits. -/
  | location {fields : List String} {field : String} : fields[1]? = some field →
      (∀ w, ¬ Word.Written field w) → HasFault d .param fields (.notANumber .location field)
  /-- The binding of a texture is not an integer of 32 bits. -/
  | binding {fields : List String} {field : String} : fields[1]? = some field →
      (∀ w, ¬ Word.Written field w) → HasFault d .texture fields (.notANumber .binding field)
  /-- The binding of a texture is zero. -/
  | reserved {fields : List String} {field : String} : fields[1]? = some field →
      Word.Written field Word.zero → HasFault d .texture fields .reservedBinding
  /-- The binding of a texture is that of a declared texture. -/
  | taken {fields : List String} {field : String} {b : Word} : fields[1]? = some field →
      Word.Written field b → b ≠ Word.zero → (∃ t ∈ d.textures, t.binding = b) →
      HasFault d .texture fields (.duplicateBinding b)
  /-- Default or bound of a parameter is not a value of the kind. -/
  | stated {fields : List String} {word field : String} {k : Kind} : fields[2]? = some word →
      Text.lower word = k.name → field ∈ (fields.drop 3).take k.stated →
      ¬ Value.Literal k field → HasFault d .param fields (.conversion k field)
  /-- The value of an action is not a value of the kind of its parameter. -/
  | value {directive : Directive} {fields : List String} {name field : String} {p : Parameter} :
      directive.IsReference → fields[0]? = some name → d.parameter? name = some p →
      fields[2]? = some field → ¬ Value.Literal p.kind field →
      HasFault d directive fields (.conversion p.kind field)
  /-- No parameter has the name. -/
  | unresolved {directive : Directive} {fields : List String} {name : String} :
      directive.IsReference → fields[0]? = some name → (∀ p ∈ d.parameters, p.name ≠ name) →
      HasFault d directive fields (.unresolvedParameter name)
  /-- The word for a key names none. -/
  | key {fields : List String} {field : String} : fields[1]? = some field →
      (∀ k, ¬ Key.Written field k) → HasFault d .keybinding fields (.invalidKey field)

/-! ### Single fields -/

theorem readIndex_eq_error {place : IndexField} {field : String} {e : DirectiveError} :
    readIndex place field = .error e ↔
      (∀ w, ¬ Word.Written field w) ∧ e = .notANumber place field := by
  simp only [readIndex, orError_eq_error, Option.eq_none_iff_forall_ne_some, ne_eq,
    Word.read?_eq_some]

theorem readKind_eq_error {field : String} {e : DirectiveError} :
    readKind field = .error e ↔
      ¬ Vocabulary.kind.Has field ∧ e = .unknownKeyword .kind field := by
  simp only [readKind, orError_eq_error, Option.eq_none_iff_forall_ne_some, ne_eq,
    Kind.read?_eq_some, Vocabulary.Has, not_exists]

theorem readSlot_eq_error {field : String} {e : DirectiveError} :
    readSlot field = .error e ↔
      ¬ Vocabulary.slot.Has field ∧ e = .unknownKeyword .slot field := by
  simp only [readSlot, orError_eq_error, Option.eq_none_iff_forall_ne_some, ne_eq,
    Slot.read?_eq_some, Vocabulary.Has, not_exists]

theorem readModification_eq_error {field : String} {e : DirectiveError} :
    readModification field = .error e ↔
      ¬ Vocabulary.modification.Has field ∧ e = .unknownKeyword .modification field := by
  simp only [readModification, orError_eq_error, Option.eq_none_iff_forall_ne_some, ne_eq,
    Modification.read?_eq_some, Vocabulary.Has, not_exists]

theorem readSettingWord_eq_error {field : String} {e : DirectiveError} :
    readSettingWord field = .error e ↔
      ¬ Vocabulary.setting.Has field ∧ e = .unknownKeyword .setting field := by
  rw [readSettingWord, orError_eq_error, ← Option.not_isSome_iff_eq_none,
    Option.isSome_iff_exists, Script.exists_setting_iff, Vocabulary.Has]

theorem readKey_eq_error {field : String} {e : DirectiveError} :
    readKey field = .error e ↔ (∀ k, ¬ Key.Written field k) ∧ e = .invalidKey field := by
  rw [readKey, orError_eq_error, ← Option.not_isSome_iff_eq_none, Key.read?_isSome, not_exists]

theorem readValue_eq_error {k : Kind} {field : String} {e : DirectiveError} :
    readValue k field = .error e ↔ ¬ Value.Literal k field ∧ e = .conversion k field := by
  rw [readValue, orError_eq_error, ← Option.not_isSome_iff_eq_none, Value.read?_isSome]

theorem Definition.kindOf_eq_error {d : Definition} {name : String} {e : DirectiveError} :
    d.kindOf name = .error e ↔
      (∀ p ∈ d.parameters, p.name ≠ name) ∧ e = .unresolvedParameter name := by
  simp [kindOf, orError_eq_error, parameter?]

/-! ### Default and bounds -/

section

variable {α : Type} [Scalar α]

theorem readOr_eq_error {missing : α} {field? : Option String} {e : DirectiveError} :
    readOr missing field? = .error e ↔
      ∃ field, field? = some field ∧ Scalar.read? (α := α) field = none ∧
        e = .conversion (Scalar.kind α) field := by
  cases field? with
  | none => simp [readOr]
  | some field => simp [readOr, readScalar, orError_eq_error]

theorem readBounds_eq_error {fields : List String} {e : DirectiveError}
    (h : readBounds (α := α) fields = .error e) :
    ∃ field ∈ fields.take 3, Scalar.read? (α := α) field = none ∧
      e = .conversion (Scalar.kind α) field := by
  have hmem {i : Nat} {field : String} (hi : i < 3) (hf : fields[i]? = some field) :
      field ∈ fields.take 3 :=
    List.mem_of_getElem? ((List.getElem?_take_of_lt hi).trans hf)
  simp only [readBounds, bind_eq_error, readOr_eq_error] at h
  rcases h with ⟨field, hf, he⟩ | ⟨_, -, ⟨field, hf, he⟩ | ⟨_, -, ⟨field, hf, he⟩ | ⟨_, -, h⟩⟩⟩
  · exact ⟨field, hmem (by decide) hf, he⟩
  · exact ⟨field, hmem (by decide) hf, he⟩
  · exact ⟨field, hmem (by decide) hf, he⟩
  · cases h

end

theorem readSwitch_eq_error {fields : List String} {e : DirectiveError}
    (h : readSwitch fields = .error e) :
    ∃ field ∈ fields.take 1, Scalar.read? (α := Bool) field = none ∧
      e = .conversion .bool field := by
  simp only [readSwitch, bind_eq_error, readOr_eq_error] at h
  rcases h with ⟨field, hf, he⟩ | ⟨_, -, h⟩
  · exact ⟨field, List.mem_of_getElem? ((List.getElem?_take_of_lt (by decide)).trans hf), he⟩
  · cases h

/-- A control that cannot be read has a field that is not of its kind. -/
theorem readControl_eq_error {k : Kind} {fields : List String} {e : DirectiveError}
    (h : readControl k fields = .error e) :
    ∃ field ∈ fields.take k.stated, ¬ Value.Literal k field ∧ e = .conversion k field := by
  have hliteral {field : String} (hread : Value.read? k field = none) :
      ¬ Value.Literal k field := by
    rw [← Value.read?_isSome, hread]
    simp
  cases k with
  | float =>
    obtain ⟨field, hf, hread, he⟩ := readBounds_eq_error (map_eq_error.1 h)
    exact ⟨field, hf, hliteral (Option.map_eq_none_iff.2 hread), he⟩
  | int =>
    obtain ⟨field, hf, hread, he⟩ := readBounds_eq_error (map_eq_error.1 h)
    exact ⟨field, hf, hliteral (Option.map_eq_none_iff.2 hread), he⟩
  | bool =>
    obtain ⟨field, hf, hread, he⟩ := readSwitch_eq_error (map_eq_error.1 h)
    exact ⟨field, hf, hliteral (Option.map_eq_none_iff.2 hread), he⟩

/-! ### Every error states a fault -/

variable {d : Definition} {fields : List String} {e : DirectiveError}

theorem hasFault_of_readDeclaration (h : readDeclaration fields = .error e) :
    HasFault d .param fields e := by
  match fields with
  | [] | [_] | [_, _] =>
    cases h
    exact .count (by simp) (Nat.le_refl 3)
  | name :: location :: word :: rest =>
    simp only [readDeclaration, bind_eq_error] at h
    rcases h with h | ⟨n, -, h | ⟨k, hk, h | ⟨c, -, h⟩⟩⟩
    · obtain ⟨hn, rfl⟩ := readIndex_eq_error.1 h
      exact .location rfl hn
    · obtain ⟨hk, rfl⟩ := readKind_eq_error.1 h
      exact .word (v := .kind) rfl rfl hk
    · obtain ⟨field, hf, hv, rfl⟩ := readControl_eq_error h
      exact .stated rfl (Kind.read?_eq_some.1 (orError_eq_ok.1 hk)) hf hv
    · cases h

theorem hasFault_of_readTexture (h : d.readTexture fields = .error e) :
    HasFault d .texture fields e := by
  match fields with
  | [] | [_] =>
    cases h
    exact .count (by simp) (Nat.le_refl 2)
  | name :: binding :: rest =>
    simp only [Definition.readTexture, bind_eq_error] at h
    rcases h with h | ⟨b, hb, h⟩
    · obtain ⟨hb, rfl⟩ := readIndex_eq_error.1 h
      exact .binding rfl hb
    · have hwritten : Word.Written binding b := Word.read?_eq_some.1 (orError_eq_ok.1 hb)
      split at h
      · rename_i hz
        cases h
        exact .reserved rfl (hz ▸ hwritten)
      · rename_i hz
        split at h
        · cases h
        · rename_i htaken
          cases h
          refine .taken rfl hwritten hz ?_
          simpa [Definition.Free] using htaken

theorem hasFault_of_readSetting {text : String} (h : readSetting fields text = .error e) :
    HasFault d .setting fields e := by
  match fields with
  | [] | [_] =>
    cases h
    exact .count (by simp) (Nat.le_refl 2)
  | word :: field :: rest =>
    simp only [readSetting, bind_eq_error] at h
    rcases h with h | ⟨s, -, h⟩
    · obtain ⟨hs, rfl⟩ := readSettingWord_eq_error.1 h
      exact .word (v := .setting) rfl rfl hs
    · cases h

theorem hasFault_of_readSlotAction (h : d.readSlotAction fields = .error e) :
    HasFault d .paramProp fields e := by
  match fields with
  | [] | [_] =>
    cases h
    exact .count (by simp) (by decide)
  | name :: slot :: rest =>
    simp only [Definition.readSlotAction, bind_eq_error] at h
    rcases h with h | ⟨k, hk, h | ⟨s, -, h⟩⟩
    · obtain ⟨hp, rfl⟩ := Definition.kindOf_eq_error.1 h
      exact .unresolved .slot rfl hp
    · obtain ⟨hs, rfl⟩ := readSlot_eq_error.1 h
      exact .word (v := .slot) rfl rfl hs
    · rcases rest with _ | ⟨field, _ | ⟨modification, rest⟩⟩
      · cases h
        exact .count (by simp) (Nat.le_refl 4)
      · cases h
        exact .count (by simp) (Nat.le_refl 4)
      · obtain ⟨p, hp, rfl⟩ := Definition.kindOf_eq_ok.1 hk
        simp only [bind_eq_error] at h
        rcases h with h | ⟨m, -, h | ⟨v, -, h⟩⟩
        · obtain ⟨hm, rfl⟩ := readModification_eq_error.1 h
          exact .word (v := .modification) rfl rfl hm
        · obtain ⟨hv, rfl⟩ := readValue_eq_error.1 h
          exact .value .slot rfl hp rfl hv
        · cases h

theorem hasFault_of_readKeyAction (h : d.readKeyAction fields = .error e) :
    HasFault d .keybinding fields e := by
  match fields with
  | [] | [_] | [_, _] | [_, _, _] =>
    cases h
    exact .count (by simp) (Nat.le_refl 4)
  | name :: key :: field :: modification :: rest =>
    simp only [Definition.readKeyAction, bind_eq_error] at h
    rcases h with h | ⟨k, hk, h | ⟨m, -, h | ⟨key', -, h | ⟨v, -, h⟩⟩⟩⟩
    · obtain ⟨hp, rfl⟩ := Definition.kindOf_eq_error.1 h
      exact .unresolved .key rfl hp
    · obtain ⟨hm, rfl⟩ := readModification_eq_error.1 h
      exact .word (v := .modification) rfl rfl hm
    · obtain ⟨hkey, rfl⟩ := readKey_eq_error.1 h
      exact .key rfl hkey
    · obtain ⟨p, hp, rfl⟩ := Definition.kindOf_eq_ok.1 hk
      obtain ⟨hv, rfl⟩ := readValue_eq_error.1 h
      exact .value .key rfl hp rfl hv
    · cases h

/-- A directive that cannot be read has the fault that the error states. -/
theorem hasFault_of_read {directive : Directive} {args : String}
    (h : d.read directive args = .error e) : HasFault d directive (Text.fields args) e := by
  cases directive with
  | param => exact hasFault_of_readDeclaration h
  | paramProp => exact hasFault_of_readSlotAction h
  | texture => exact hasFault_of_readTexture h
  | setting => exact hasFault_of_readSetting h
  | keybinding => exact hasFault_of_readKeyAction h

/-! ### Every fault is refused -/

theorem Kind.bounds_iff {k : Kind} {rest : List String} :
    k.Bounds rest ↔ ∀ field ∈ rest.take k.stated, Value.Literal k field := by
  cases k <;> exact Iff.rfl

theorem not_hasFault_of_readDeclaration {c : Change} (h : readDeclaration fields = .ok c) :
    ¬ HasFault d .param fields e := by
  obtain ⟨name, location, word, rest, n, k, control, rfl, hn, hk, hc, -⟩ :=
    readDeclaration_eq_ok.1 h
  intro fault
  cases fault with
  | count hlt hle => exact absurd (Nat.lt_of_lt_of_le hlt hle) (by simp [Directive.needed])
  | @word _ _ v i field hplace hfield hnot =>
    cases v <;> cases hplace
    cases hfield
    exact hnot ⟨k, Kind.read?_eq_some.1 hk⟩
  | location hfield hnot =>
    cases hfield
    exact hnot n (Word.read?_eq_some.1 hn)
  | stated hword hk' hfield hnot =>
    cases hword
    cases hk.symm.trans (Kind.read?_eq_some.2 hk')
    exact hnot (Kind.bounds_iff.1 (readControl_isOk.1 ⟨control, hc⟩) _ hfield)
  | value href => cases href
  | unresolved href => cases href

theorem not_hasFault_of_readTexture {c : Change} (h : d.readTexture fields = .ok c) :
    ¬ HasFault d .texture fields e := by
  obtain ⟨name, binding, rest, b, rfl, hb, hz, hfree, -⟩ := Definition.readTexture_eq_ok.1 h
  have hunique {w : Word} (hw : Word.Written binding w) : w = b :=
    Option.some.inj ((Word.read?_eq_some.2 hw).symm.trans hb)
  intro fault
  cases fault with
  | count hlt hle => exact absurd (Nat.lt_of_lt_of_le hlt hle) (by simp [Directive.needed])
  | @word _ _ v i field hplace hfield hnot => cases v <;> cases hplace
  | binding hfield hnot =>
    cases hfield
    exact hnot b (Word.read?_eq_some.1 hb)
  | reserved hfield hw =>
    cases hfield
    exact hz (hunique hw).symm
  | taken hfield hw _ htaken =>
    cases hfield
    obtain ⟨t, ht, htb⟩ := htaken
    exact hfree t ht (htb.trans (hunique hw))
  | value href => cases href
  | unresolved href => cases href

theorem not_hasFault_of_readSetting {text : String} {c : Change}
    (h : readSetting fields text = .ok c) : ¬ HasFault d .setting fields e := by
  obtain ⟨word, field, rest, s, rfl, hs, -⟩ := readSetting_eq_ok.1 h
  intro fault
  cases fault with
  | count hlt hle => exact absurd (Nat.lt_of_lt_of_le hlt hle) (by simp [Directive.needed])
  | @word _ _ v i field hplace hfield hnot =>
    cases v <;> cases hplace
    cases hfield
    exact hnot (Script.exists_setting_iff.1 ⟨s, hs⟩)
  | value href => cases href
  | unresolved href => cases href

/-- A name that has a parameter is resolved. -/
theorem Definition.not_unresolved {name : String} {p : Parameter}
    (hp : d.parameter? name = some p) : ¬ ∀ q ∈ d.parameters, q.name ≠ name := by
  intro h
  have hname := List.find?_some hp
  exact h p (List.mem_of_find?_eq_some hp) (beq_iff_eq.1 hname)

theorem not_hasFault_of_readSlotAction {c : Change} (h : d.readSlotAction fields = .ok c) :
    ¬ HasFault d .paramProp fields e := by
  obtain ⟨name, slot, field, modification, rest, p, s, m, v, rfl, hp, hs, hm, hv, -⟩ :=
    Definition.readSlotAction_eq_ok.1 h
  intro fault
  cases fault with
  | count hlt hle => exact absurd (Nat.lt_of_lt_of_le hlt hle) (by simp [Directive.needed])
  | @word _ _ v i field hplace hfield hnot =>
    cases v <;> cases hplace <;> cases hfield
    · exact hnot ⟨s, Slot.read?_eq_some.1 hs⟩
    · exact hnot ⟨m, Modification.read?_eq_some.1 hm⟩
  | value _ hname hp' hfield hnot =>
    cases hname
    cases hfield
    cases hp.symm.trans hp'
    exact hnot (Value.read?_isSome.1 (Option.isSome_of_eq_some hv))
  | unresolved _ hname hnot =>
    cases hname
    exact Definition.not_unresolved hp hnot

theorem not_hasFault_of_readKeyAction {c : Change} (h : d.readKeyAction fields = .ok c) :
    ¬ HasFault d .keybinding fields e := by
  obtain ⟨name, key, field, modification, rest, p, k, m, v, rfl, hp, hk, hm, hv, -⟩ :=
    Definition.readKeyAction_eq_ok.1 h
  intro fault
  cases fault with
  | count hlt hle => exact absurd (Nat.lt_of_lt_of_le hlt hle) (by simp [Directive.needed])
  | @word _ _ v i field hplace hfield hnot =>
    cases v <;> cases hplace
    cases hfield
    exact hnot ⟨m, Modification.read?_eq_some.1 hm⟩
  | value _ hname hp' hfield hnot =>
    cases hname
    cases hfield
    cases hp.symm.trans hp'
    exact hnot (Value.read?_isSome.1 (Option.isSome_of_eq_some hv))
  | unresolved _ hname hnot =>
    cases hname
    exact Definition.not_unresolved hp hnot
  | key hfield hnot =>
    cases hfield
    obtain ⟨key', hkey⟩ := Key.read?_isSome.1 (Option.isSome_of_eq_some hk)
    exact hnot key' hkey

/-- A directive that can be read has no fault. -/
theorem not_hasFault_of_read {directive : Directive} {args : String} {c : Change}
    (h : d.read directive args = .ok c) : ¬ HasFault d directive (Text.fields args) e := by
  cases directive with
  | param => exact not_hasFault_of_readDeclaration h
  | paramProp => exact not_hasFault_of_readSlotAction h
  | texture => exact not_hasFault_of_readTexture h
  | setting => exact not_hasFault_of_readSetting h
  | keybinding => exact not_hasFault_of_readKeyAction h

namespace Script

/-- **Every error is truthful.** A line that is refused is a directive, and the error states a
fault that it has: the field that the error shows stands where the error says, with the fault
that the error says. There is one field more than there are commas. Conversely a directive that has
any fault is refused. -/
theorem error_states_fault (d : Definition) (line : String) :
    (∀ e, (d.step line).result = .error e →
      ∃ directive args, Directive.classify? line = some (directive, args) ∧
        (Text.fields args).length = args.toList.count ',' + 1 ∧
        HasFault d directive (Text.fields args) e) ∧
    ∀ directive args e, Directive.classify? line = some (directive, args) →
      HasFault d directive (Text.fields args) e → ∃ e', (d.step line).result = .error e' := by
  constructor
  · intro e h
    obtain ⟨directive, args, hc, hread⟩ := Definition.result_step_eq_error.1 h
    refine ⟨directive, args, hc, ?_, hasFault_of_read hread⟩
    rw [Text.fields, List.length_map, Text.length_pieces]
  · intro directive args e hc hfault
    cases hread : d.read directive args with
    | error e' => exact ⟨e', Definition.result_step_eq_error.2 ⟨directive, args, hc, hread⟩⟩
    | ok c => exact absurd hfault (not_hasFault_of_read hread)

/-- A line with three faults is refused for its last field, and a line is refused for a value that
a later parameter with the same name could take. -/
theorem error_states_fault_several :
    let d := feed (.blank "f") ["#param x,0,bool", "#param x,1,int"]
    (∃ directive args, Directive.classify? "#keybinding x,Nokey, 7 ,twice" =
        some (directive, args) ∧
      HasFault d directive (Text.fields args) (.unknownKeyword .modification "twice")) ∧
    (∃ e, (d.step "#keybinding x,Nokey, 7 ,twice").result = .error e) ∧
    ∃ directive args, Directive.classify? "#paramprop x,OnAdd,7,set" = some (directive, args) ∧
      HasFault d directive (Text.fields args) (.conversion .bool "7") := by
  intro d
  have hseveral : (d.step "#keybinding x,Nokey, 7 ,twice").result =
      .error (.unknownKeyword .modification "twice") := rfl
  have hkind : (d.step "#paramprop x,OnAdd,7,set").result = .error (.conversion .bool "7") := rfl
  obtain ⟨directive, args, hc, -, hfault⟩ := (error_states_fault d _).1 _ hseveral
  obtain ⟨directive', args', hc', -, hfault'⟩ := (error_states_fault d _).1 _ hkind
  exact ⟨⟨directive, args, hc, hfault⟩, (error_states_fault d _).2 _ _ _ hc hfault,
    directive', args', hc', hfault'⟩

end Script

end ShaderFilter
