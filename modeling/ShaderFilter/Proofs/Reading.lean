import ShaderFilter.Proofs.Change

/-!
# What a line says

For each reader of directives, the fields that it accepts and the change that it makes of them.
`Says` puts these together: it relates a line to its change, by the fields alone. Later
statements go by the cases of `Says` and look into no reader.
-/

namespace ShaderFilter

open Number (Word)

theorem readDeclaration_eq_ok {fields : List String} {c : Change} :
    readDeclaration fields = .ok c ↔
      ∃ name location word rest n k control, fields = name :: location :: word :: rest ∧
        Word.read? location = some n ∧ Kind.read? word = some k ∧
        readControl k rest = .ok control ∧ c = .declare ⟨name, n, control⟩ := by
  fun_cases readDeclaration fields with
  | case1 name location word rest =>
    simp only [readIndex, readKind, bind_eq_ok, orError_eq_ok, pure, Except.pure, Except.ok.injEq]
    constructor
    · rintro ⟨n, hn, k, hk, control, hc, rfl⟩
      exact ⟨name, location, word, rest, n, k, control, rfl, hn, hk, hc, rfl⟩
    · rintro ⟨_, _, _, _, n, k, control, hf, hn, hk, hc, rfl⟩
      cases hf
      exact ⟨n, hn, k, hk, control, hc, rfl⟩
  | case2 _ h =>
    constructor
    · intro h
      cases h
    · rintro ⟨name, location, word, rest, _, _, _, rfl, _⟩
      exact absurd rfl (h name location word rest)

theorem readSetting_eq_ok {fields : List String} {text : String} {c : Change} :
    readSetting fields text = .ok c ↔
      ∃ word field rest s, fields = word :: field :: rest ∧
        Text.keyword? settings word = some s ∧ c = .set (s field text) := by
  fun_cases readSetting fields text with
  | case1 word field rest =>
    simp only [readSettingWord, bind_eq_ok, orError_eq_ok, pure, Except.pure, Except.ok.injEq]
    constructor
    · rintro ⟨s, hs, rfl⟩
      exact ⟨word, field, rest, s, rfl, hs, rfl⟩
    · rintro ⟨_, _, _, s, hf, hs, rfl⟩
      cases hf
      exact ⟨s, hs, rfl⟩
  | case2 _ h =>
    constructor
    · intro h
      cases h
    · rintro ⟨word, field, rest, _, rfl, _⟩
      exact absurd rfl (h word field rest)

/-- A line is a directive, well-formed or not. -/
def Directive.isDirective (line : String) : Bool := (classify? line).isSome

namespace Definition

variable {d : Definition}

theorem kindOf_eq_ok {name : String} {k : Kind} :
    d.kindOf name = .ok k ↔ ∃ p, d.parameter? name = some p ∧ p.kind = k := by
  rw [kindOf, orError_eq_ok, Option.map_eq_some_iff]

theorem readTexture_eq_ok {fields : List String} {c : Change} :
    d.readTexture fields = .ok c ↔
      ∃ name binding rest b, fields = name :: binding :: rest ∧ Word.read? binding = some b ∧
        b ≠ Word.zero ∧ d.Free b ∧ c = .attach ⟨name, b⟩ := by
  fun_cases readTexture d fields with
  | case1 name binding rest =>
    simp only [readIndex, bind_eq_ok, orError_eq_ok]
    constructor
    · rintro ⟨b, hb, h⟩
      split at h
      · cases h
      · rename_i hz
        split at h
        · rename_i hd
          cases h
          exact ⟨name, binding, rest, b, rfl, hb, hz, hd, rfl⟩
        · cases h
    · rintro ⟨_, _, _, b, hf, hb, hz, hd, rfl⟩
      cases hf
      exact ⟨b, hb, by rw [if_neg hz, if_pos hd]⟩
  | case2 _ h =>
    constructor
    · intro h
      cases h
    · rintro ⟨name, binding, rest, _, rfl, _⟩
      exact absurd rfl (h name binding rest)

theorem readSlotAction_eq_ok {fields : List String} {c : Change} :
    d.readSlotAction fields = .ok c ↔
      ∃ name slot field modification rest p s m v,
        fields = name :: slot :: field :: modification :: rest ∧ d.parameter? name = some p ∧
        Slot.read? slot = some s ∧ Modification.read? modification = some m ∧
        Value.read? p.kind field = some v ∧ c = .bind ⟨name, .slot s, field, ⟨v, m⟩⟩ := by
  constructor
  · intro h
    match fields with
    | [] | [_] => cases h
    | [name, slot] | [name, slot, _] =>
      simp only [readSlotAction, bind_eq_ok] at h
      obtain ⟨_, -, _, -, h⟩ := h
      cases h
    | name :: slot :: field :: modification :: rest =>
      simp only [readSlotAction, readSlot, readModification, readValue, bind_eq_ok, orError_eq_ok,
        kindOf_eq_ok] at h
      obtain ⟨_, ⟨p, hp, rfl⟩, s, hs, m, hm, v, hv, h⟩ := h
      cases h
      exact ⟨name, slot, field, modification, rest, p, s, m, v, rfl, hp, hs, hm, hv, rfl⟩
  · rintro ⟨name, slot, field, modification, rest, p, s, m, v, rfl, hp, hs, hm, hv, rfl⟩
    simp only [readSlotAction, readSlot, readModification, readValue, bind_eq_ok, orError_eq_ok,
      kindOf_eq_ok]
    exact ⟨p.kind, ⟨p, hp, rfl⟩, s, hs, m, hm, v, hv, rfl⟩

theorem readKeyAction_eq_ok {fields : List String} {c : Change} :
    d.readKeyAction fields = .ok c ↔
      ∃ name key field modification rest p k m v,
        fields = name :: key :: field :: modification :: rest ∧ d.parameter? name = some p ∧
        Key.read? key = some k ∧ Modification.read? modification = some m ∧
        Value.read? p.kind field = some v ∧ c = .bind ⟨name, .key k, field, ⟨v, m⟩⟩ := by
  fun_cases readKeyAction d fields with
  | case1 name key field modification rest =>
    simp only [readKey, readModification, readValue, bind_eq_ok, orError_eq_ok, kindOf_eq_ok]
    constructor
    · rintro ⟨_, ⟨p, hp, rfl⟩, m, hm, k, hk, v, hv, h⟩
      cases h
      exact ⟨name, key, field, modification, rest, p, k, m, v, rfl, hp, hk, hm, hv, rfl⟩
    · rintro ⟨_, _, _, _, _, p, k, m, v, hf, hp, hk, hm, hv, rfl⟩
      cases hf
      exact ⟨p.kind, ⟨p, hp, rfl⟩, m, hm, k, hk, v, hv, rfl⟩
  | case2 _ h =>
    constructor
    · intro h
      cases h
    · rintro ⟨name, key, field, modification, rest, _, _, _, _, rfl, _⟩
      exact absurd rfl (h name key field modification rest)

/-- A line says a change: it has a directive, and the fields of its arguments are what the
change needs. -/
inductive Says (d : Definition) (line : String) : Change → Prop where
  /-- A name, a location, a kind, and default and bounds of this kind. -/
  | declare {args name location word : String} {rest : List String} {n : Word} {k : Kind}
      {c : AnyControl} :
      Directive.classify? line = some (.param, args) →
      Text.fields args = name :: location :: word :: rest →
      Word.read? location = some n → Kind.read? word = some k → readControl k rest = .ok c →
      Says d line (.declare ⟨name, n, c⟩)
  /-- A name and a binding that is not reserved and not taken. -/
  | attach {args name binding : String} {rest : List String} {b : Word} :
      Directive.classify? line = some (.texture, args) →
      Text.fields args = name :: binding :: rest →
      Word.read? binding = some b → b ≠ Word.zero → d.Free b → Says d line (.attach ⟨name, b⟩)
  /-- The word of a setting and a field. -/
  | set {args word field : String} {rest : List String} {s : String → String → Setting} :
      Directive.classify? line = some (.setting, args) → Text.fields args = word :: field :: rest →
      Text.keyword? settings word = some s → Says d line (.set (s field (Text.tail args)))
  /-- The name of a parameter, a slot, a value of the parameter's kind and a modification. -/
  | bindSlot {args name slot field modification : String} {rest : List String} {p : Parameter}
      {s : Slot} {m : Modification} {v : Value} :
      Directive.classify? line = some (.paramProp, args) →
      Text.fields args = name :: slot :: field :: modification :: rest →
      d.parameter? name = some p → Slot.read? slot = some s →
      Modification.read? modification = some m → Value.read? p.kind field = some v →
      Says d line (.bind ⟨name, .slot s, field, ⟨v, m⟩⟩)
  /-- The name of a parameter, a key, a value of the parameter's kind and a modification. -/
  | bindKey {args name key field modification : String} {rest : List String} {p : Parameter}
      {k : Key} {m : Modification} {v : Value} :
      Directive.classify? line = some (.keybinding, args) →
      Text.fields args = name :: key :: field :: modification :: rest →
      d.parameter? name = some p → Key.read? key = some k →
      Modification.read? modification = some m → Value.read? p.kind field = some v →
      Says d line (.bind ⟨name, .key k, field, ⟨v, m⟩⟩)

theorem says_iff {line : String} {c : Change} :
    d.Says line c ↔
      ∃ directive args, Directive.classify? line = some (directive, args) ∧
        d.read directive args = .ok c := by
  constructor
  · intro h
    cases h with
    | declare hc hf hn hk hr =>
      exact ⟨_, _, hc, readDeclaration_eq_ok.2 ⟨_, _, _, _, _, _, _, hf, hn, hk, hr, rfl⟩⟩
    | attach hc hf hb hz hd =>
      exact ⟨_, _, hc, readTexture_eq_ok.2 ⟨_, _, _, _, hf, hb, hz, hd, rfl⟩⟩
    | set hc hf hs => exact ⟨_, _, hc, readSetting_eq_ok.2 ⟨_, _, _, _, hf, hs, rfl⟩⟩
    | bindSlot hc hf hp hs hm hv =>
      exact ⟨_, _, hc, readSlotAction_eq_ok.2 ⟨_, _, _, _, _, _, _, _, _, hf, hp, hs, hm, hv, rfl⟩⟩
    | bindKey hc hf hp hk hm hv =>
      exact ⟨_, _, hc, readKeyAction_eq_ok.2 ⟨_, _, _, _, _, _, _, _, _, hf, hp, hk, hm, hv, rfl⟩⟩
  · rintro ⟨directive, args, hc, h⟩
    cases directive with
    | param =>
      obtain ⟨_, _, _, _, _, _, _, hf, hn, hk, hr, rfl⟩ := readDeclaration_eq_ok.1 h
      exact .declare hc hf hn hk hr
    | texture =>
      obtain ⟨_, _, _, _, hf, hb, hz, hd, rfl⟩ := readTexture_eq_ok.1 h
      exact .attach hc hf hb hz hd
    | setting =>
      obtain ⟨_, _, _, _, hf, hs, rfl⟩ := readSetting_eq_ok.1 h
      exact .set hc hf hs
    | paramProp =>
      obtain ⟨_, _, _, _, _, _, _, _, _, hf, hp, hs, hm, hv, rfl⟩ := readSlotAction_eq_ok.1 h
      exact .bindSlot hc hf hp hs hm hv
    | keybinding =>
      obtain ⟨_, _, _, _, _, _, _, _, _, hf, hp, hk, hm, hv, rfl⟩ := readKeyAction_eq_ok.1 h
      exact .bindKey hc hf hp hk hm hv

/-- **A line that is taken in is a line of the source, or says a change and makes it.** -/
theorem result_step_eq_ok {e : Definition} {line : String} :
    (d.step line).result = .ok e ↔
      (Directive.classify? line = none ∧ e = d.addLine line) ∨
      ∃ c, d.Says line c ∧ e = (d.change c).addLine "" := by
  rw [result_step]
  cases hc : Directive.classify? line with
  | none => simp [says_iff, hc, eq_comm]
  | some entry =>
    obtain ⟨directive, args⟩ := entry
    simp only [map_eq_ok, says_iff, hc, reduceCtorEq, false_and, false_or, Option.some.injEq,
      Prod.mk.injEq]
    constructor
    · rintro ⟨c, h, rfl⟩
      exact ⟨c, ⟨directive, args, ⟨rfl, rfl⟩, h⟩, rfl⟩
    · rintro ⟨c, ⟨_, _, ⟨rfl, rfl⟩, h⟩, rfl⟩
      exact ⟨c, h, rfl⟩

/-- A directive that is accepted says a change and makes it. -/
theorem result_step_directive {e : Definition} {line : String}
    (h : Directive.isDirective line) :
    (d.step line).result = .ok e ↔ ∃ c, d.Says line c ∧ e = (d.change c).addLine "" := by
  rw [result_step_eq_ok, or_iff_right]
  rintro ⟨hc, -⟩
  simp [Directive.isDirective, hc] at h

/-- A line that is no directive is a line of the source. -/
theorem result_step_source {e : Definition} {line : String}
    (h : ¬ Directive.isDirective line) : (d.step line).result = .ok e ↔ e = d.addLine line := by
  have hc : Directive.classify? line = none := by simpa [Directive.isDirective] using h
  rw [result_step, hc, Except.ok.injEq, eq_comm]

/-- A line that is refused is a directive that cannot be read. -/
theorem result_step_eq_error {line : String} {e : DirectiveError} :
    (d.step line).result = .error e ↔
      ∃ directive args, Directive.classify? line = some (directive, args) ∧
        d.read directive args = .error e := by
  rw [result_step]
  cases hc : Directive.classify? line with
  | none => simp
  | some entry =>
    obtain ⟨directive, args⟩ := entry
    simp only [Option.some.injEq, Prod.mk.injEq]
    constructor
    · intro h
      cases hr : d.read directive args with
      | ok c => simp [hr] at h
      | error e' =>
        simp only [hr, map_error, Except.error.injEq] at h
        exact ⟨directive, args, ⟨rfl, rfl⟩, h ▸ hr⟩
    · rintro ⟨_, _, ⟨rfl, rfl⟩, h⟩
      rw [h, map_error]

end Definition

end ShaderFilter
