import ShaderFilter.Proofs.Literal
import ShaderFilter.Proofs.Run

/-!
# The grammar of scripts

Which scripts parse can be told from their text. `WellFormed` says of a line, in view of the
lines before it, that it is a line of the source or a directive whose fields are as the
directive demands: literals, words of a vocabulary, names that an earlier line declares,
bindings that no earlier line has taken. `exists_parse_iff` says that a script parses if all its
lines are well-formed.

The loader judges a line by the definition so far, the grammar by the earlier lines. What
connects the two is `Follows`: the kinds of the declared parameters and the bindings of the
declared textures are what the earlier lines say.
-/

namespace ShaderFilter

open Number (Word)

/-! ### Default and bounds -/

/-- The fields after the kind are good for a parameter of the kind: where default, lower bound
and upper bound are present they are literals. A bool parameter has no bounds to state. -/
def Kind.Bounds (k : Kind) (fields : List String) : Prop :=
  match k with
  | .bool => ∀ field ∈ fields.take 1, Value.Literal .bool field
  | k => ∀ field ∈ fields.take 3, Value.Literal k field

theorem readOr_isOk {α : Type} [Scalar α] (missing : α) {field? : Option String} :
    (∃ a, readOr missing field? = .ok a) ↔
      ∀ field ∈ field?, (Scalar.read? (α := α) field).isSome := by
  cases field? with
  | none => simp [readOr]
  | some field => simp [readOr, readScalar, orError_eq_ok, Option.isSome_iff_exists]

theorem forall_mem_take_three {p : String → Prop} {fields : List String} :
    (∀ field ∈ fields.take 3, p field) ↔
      (∀ field ∈ fields[0]?, p field) ∧ (∀ field ∈ fields[1]?, p field) ∧
        ∀ field ∈ fields[2]?, p field := by
  match fields with
  | [] | [_] | [_, _] | _ :: _ :: _ :: _ => simp

theorem readBounds_isOk {α : Type} [Scalar α] {fields : List String} :
    (∃ c : Control α, readBounds fields = .ok c) ↔
      ∀ field ∈ fields.take 3, (Scalar.read? (α := α) field).isSome := by
  rw [forall_mem_take_three, ← readOr_isOk Scalar.zero, ← readOr_isOk Scalar.least,
    ← readOr_isOk Scalar.greatest]
  simp only [readBounds, bind_eq_ok]
  constructor
  · rintro ⟨_, a, ha, b, hb, c, hc, -⟩
    exact ⟨⟨a, ha⟩, ⟨b, hb⟩, ⟨c, hc⟩⟩
  · rintro ⟨⟨a, ha⟩, ⟨b, hb⟩, ⟨c, hc⟩⟩
    exact ⟨_, a, ha, b, hb, c, hc, rfl⟩

theorem readSwitch_isOk {fields : List String} :
    (∃ c, readSwitch fields = .ok c) ↔ ∀ field ∈ fields.take 1, (Value.readBool? field).isSome := by
  have hread : (∀ field ∈ fields.take 1, (Value.readBool? field).isSome) ↔
      ∀ field ∈ fields[0]?, (Scalar.read? (α := Bool) field).isSome := by
    cases fields <;> simp [Scalar.read?]
  rw [hread, ← readOr_isOk false]
  simp only [readSwitch, bind_eq_ok]
  constructor
  · rintro ⟨_, a, ha, -⟩
    exact ⟨a, ha⟩
  · rintro ⟨a, ha⟩
    exact ⟨_, a, ha, rfl⟩

theorem readControl_isOk {k : Kind} {fields : List String} :
    (∃ c, readControl k fields = .ok c) ↔ k.Bounds fields := by
  have hmap {α : Type} {x : Except DirectiveError α} {f : α → AnyControl} :
      (∃ c, f <$> x = .ok c) ↔ ∃ a, x = .ok a := by
    cases x <;> simp
  cases k with
  | float =>
    simp only [readControl, hmap, readBounds_isOk, Kind.Bounds, ← Value.read?_isSome, Value.read?,
      Option.isSome_map]
    rfl
  | int =>
    simp only [readControl, hmap, readBounds_isOk, Kind.Bounds, ← Value.read?_isSome, Value.read?,
      Option.isSome_map]
    rfl
  | bool =>
    simp only [readControl, hmap, readSwitch_isOk, Kind.Bounds, ← Value.read?_isSome, Value.read?,
      Option.isSome_map]

namespace Script

/-! ### The grammar -/

/-- A line declares a parameter with a name, whatever else it says. -/
def declares (name line : String) : Bool :=
  match Directive.classify? line with
  | some (.param, args) => (Text.fields args).head? == some name
  | _ => false

/-- A line declares a parameter of a kind. -/
def SaysKind (line : String) (k : Kind) : Prop :=
  ∃ args name location word rest, Directive.classify? line = some (.param, args) ∧
    Text.fields args = name :: location :: word :: rest ∧ Text.lower word = k.name

/-- The first line that declares a parameter with this name declares one of this kind. -/
def DeclaredAs (lines : List String) (name : String) (k : Kind) : Prop :=
  ∃ line, lines.find? (declares name) = some line ∧ SaysKind line k

/-- A line declares a texture at a binding. -/
def SaysBinding (line : String) (b : Word) : Prop :=
  ∃ args name field rest, Directive.classify? line = some (.texture, args) ∧
    Text.fields args = name :: field :: rest ∧ Word.Written field b

/-- A line is well-formed after the lines before it. -/
inductive WellFormed (before : List String) (line : String) : Prop where
  /-- A line of the shader source. -/
  | source : Directive.classify? line = none → WellFormed before line
  /-- A parameter has a location, a kind, and default and bounds of this kind. -/
  | param {args name location word : String} {rest : List String} {n : Word} {k : Kind} :
      Directive.classify? line = some (.param, args) →
      Text.fields args = name :: location :: word :: rest →
      Word.Written location n → Text.lower word = k.name → k.Bounds rest → WellFormed before line
  /-- A texture has a binding of its own that is not zero. -/
  | texture {args name field : String} {rest : List String} {b : Word} :
      Directive.classify? line = some (.texture, args) → Text.fields args = name :: field :: rest →
      Word.Written field b → b ≠ Word.zero → (∀ l ∈ before, ¬ SaysBinding l b) →
      WellFormed before line
  /-- A setting has one of four words, and a field. -/
  | setting {args word field : String} {rest : List String} :
      Directive.classify? line = some (.setting, args) → Text.fields args = word :: field :: rest →
      Text.lower word ∈ ["sepa", "singleinvocation", "title", "description"] →
      WellFormed before line
  /-- An action on a slot names a declared parameter and has a value of its kind. -/
  | paramProp {args name slot field modification : String} {rest : List String} {k : Kind}
      {s : Slot} {m : Modification} :
      Directive.classify? line = some (.paramProp, args) →
      Text.fields args = name :: slot :: field :: modification :: rest →
      DeclaredAs before name k → Text.lower slot = Text.lower s.name →
      Text.lower modification = m.name → Value.Literal k field → WellFormed before line
  /-- An action on a key names a declared parameter and has a value of its kind. -/
  | keybinding {args name word field modification : String} {rest : List String} {k : Kind}
      {key : Key} {m : Modification} :
      Directive.classify? line = some (.keybinding, args) →
      Text.fields args = name :: word :: field :: modification :: rest →
      DeclaredAs before name k → Key.Written word key →
      Text.lower modification = m.name → Value.Literal k field → WellFormed before line

/-! ### What lines say is said once -/

theorem fields_unique {line args args' : String} {fs fs' : List String} {directive : Directive}
    (hc : Directive.classify? line = some (directive, args)) (hf : Text.fields args = fs)
    (hc' : Directive.classify? line = some (directive, args')) (hf' : Text.fields args' = fs') :
    fs = fs' := by
  rw [hc] at hc'
  cases hc'
  exact hf.symm.trans hf'

theorem SaysKind.unique {line : String} {k k' : Kind} (h : SaysKind line k)
    (h' : SaysKind line k') : k = k' := by
  obtain ⟨_, _, _, word, _, hc, hf, hk⟩ := h
  obtain ⟨_, _, _, word', _, hc', hf', hk'⟩ := h'
  cases fields_unique hc hf hc' hf'
  rw [← Kind.read?_eq_some] at hk hk'
  exact Option.some.inj (hk.symm.trans hk')

theorem SaysBinding.unique {line : String} {b b' : Word} (h : SaysBinding line b)
    (h' : SaysBinding line b') : b = b' := by
  obtain ⟨_, _, field, _, hc, hf, hb⟩ := h
  obtain ⟨_, _, field', _, hc', hf', hb'⟩ := h'
  cases fields_unique hc hf hc' hf'
  rw [← Word.read?_eq_some] at hb hb'
  exact Option.some.inj (hb.symm.trans hb')

theorem declares_eq_false {name line : String}
    (h : ∀ args, Directive.classify? line ≠ some (.param, args)) : declares name line = false := by
  unfold declares
  split
  · exact absurd ‹_› (h _)
  · rfl

theorem not_saysBinding {line : String} {b : Word}
    (h : ∀ args, Directive.classify? line ≠ some (.texture, args)) : ¬ SaysBinding line b := by
  rintro ⟨args, _, _, _, hc, -⟩
  exact h args hc

/-! ### The definition follows the lines -/

/-- A definition knows of earlier lines what decides over later ones. -/
structure Follows (lines : List String) (d : Definition) : Prop where
  /-- A name has a parameter if a line declares it, of the kind that the first of these lines
  says. -/
  kinds : ∀ name,
    Option.Rel SaysKind (lines.find? (declares name)) ((d.parameter? name).map Parameter.kind)
  /-- A binding is free if no line declares a texture there. -/
  bindings : ∀ b, d.Free b ↔ ∀ l ∈ lines, ¬ SaysBinding l b

theorem Follows.declaredAs {lines : List String} {d : Definition} (h : Follows lines d)
    {name : String} {k : Kind} :
    DeclaredAs lines name k ↔ ∃ p, d.parameter? name = some p ∧ p.kind = k := by
  rw [← Option.map_eq_some_iff, DeclaredAs]
  have hr := h.kinds name
  generalize lines.find? (declares name) = line? at hr
  generalize (d.parameter? name).map Parameter.kind = k? at hr
  cases hr with
  | none => simp
  | some hl =>
    simp only [Option.some.injEq, exists_eq_left']
    constructor
    · exact hl.unique
    · rintro rfl
      exact hl

theorem follows_nil (name : String) : Follows [] (.blank name) where
  kinds _ := .none
  bindings _ := by simp [Definition.Free, Definition.blank]

theorem find?_declares_snoc {lines : List String} {line name : String} :
    (lines ++ [line]).find? (declares name) =
      (lines.find? (declares name)).or (if declares name line then some line else none) := by
  cases hd : declares name line <;> simp [List.find?_append, hd]

/-- A line that declares no parameter and no texture decides over no other line. -/
theorem Follows.other {lines : List String} {line : String} {d e : Definition} (h : Follows lines d)
    (hparam : ∀ args, Directive.classify? line ≠ some (.param, args))
    (htexture : ∀ args, Directive.classify? line ≠ some (.texture, args))
    (hkinds : ∀ name,
      (e.parameter? name).map Parameter.kind = (d.parameter? name).map Parameter.kind)
    (hbindings : ∀ b, e.Free b ↔ d.Free b) : Follows (lines ++ [line]) e where
  kinds name := by
    rw [find?_declares_snoc, declares_eq_false hparam, hkinds]
    simpa using h.kinds name
  bindings b := by
    rw [hbindings, h.bindings, List.forall_mem_append, List.forall_mem_singleton]
    simp [not_saysBinding htexture]

/-- A line that declares a parameter decides over the kind of this name, unless an earlier line
has. -/
theorem Follows.declare {lines : List String} {line args name location word : String}
    {rest : List String} {n : Word} {k : Kind} {c : AnyControl} {d : Definition}
    (h : Follows lines d)
    (hc : Directive.classify? line = some (.param, args))
    (hf : Text.fields args = name :: location :: word :: rest) (hk : Kind.read? word = some k)
    (hr : readControl k rest = .ok c) :
    Follows (lines ++ [line]) ((d.change (.declare ⟨name, n, c⟩)).addLine "") where
  kinds other := by
    have hkind := kind_of_readControl hr name n
    rw [find?_declares_snoc, Definition.parameter?_addLine, Definition.parameter?_declare,
      Option.map_or]
    refine rel_or (h.kinds other) ?_
    by_cases ho : name = other
    · simp only [declares, hc, hf, ho, List.head?_cons, BEq.rfl, if_true, Option.map_some]
      exact .some ⟨args, name, location, word, rest, hc, hf, hkind ▸ Kind.read?_eq_some.1 hk⟩
    · simp [declares, hc, hf, ho]
  bindings b := by
    have hnot : ¬ SaysBinding line b := not_saysBinding (by simp [hc])
    rw [List.forall_mem_append, List.forall_mem_singleton, ← h.bindings, and_iff_left hnot]
    exact Iff.rfl

/-- A line that declares a texture takes its binding. -/
theorem Follows.attach {lines : List String} {line args name field : String} {rest : List String}
    {b : Word} {d : Definition} (h : Follows lines d)
    (hc : Directive.classify? line = some (.texture, args))
    (hf : Text.fields args = name :: field :: rest) (hb : Word.read? field = some b) :
    Follows (lines ++ [line]) ((d.change (.attach ⟨name, b⟩)).addLine "") where
  kinds other := by
    rw [find?_declares_snoc, declares_eq_false (by simp [hc])]
    simpa using h.kinds other
  bindings other := by
    have hl : SaysBinding line b := ⟨args, name, field, rest, hc, hf, Word.read?_eq_some.1 hb⟩
    rw [Definition.free_addLine, Definition.free_attach, h.bindings, List.forall_mem_append,
      List.forall_mem_singleton]
    refine and_congr_right fun _ => ⟨fun hne hl' => hne (hl.unique hl'), ?_⟩
    rintro hnot rfl
    exact hnot hl

/-- What a definition knows of the lines so far, it knows of one more line after it has been
taken in. -/
theorem Follows.snoc {lines : List String} {line : String} {d e : Definition} (h : Follows lines d)
    (hl : (d.step line).result = .ok e) : Follows (lines ++ [line]) e := by
  rcases Definition.result_step_eq_ok.1 hl with ⟨hc, rfl⟩ | ⟨c, hs, rfl⟩
  · exact h.other (by simp [hc]) (by simp [hc]) (fun _ => rfl) fun _ => Iff.rfl
  · cases hs with
    | declare hc hf hn hk hr => exact h.declare hc hf hk hr
    | attach hc hf hb hz hd => exact h.attach hc hf hb
    | set hc hf hs => exact h.other (by simp [hc]) (by simp [hc]) (by simp) (by simp)
    | bindSlot hc hf hp hs hm hv =>
      exact h.other (by simp [hc]) (by simp [hc]) (by simp [Definition.kind_parameter?_bind])
        fun _ => Iff.rfl
    | bindKey hc hf hp hk hm hv =>
      exact h.other (by simp [hc]) (by simp [hc]) (by simp [Definition.kind_parameter?_bind])
        fun _ => Iff.rfl

theorem follows_of_reaches {name : String} {lines : List String} {d : Definition}
    (h : Reaches (.blank name) lines d) : Follows lines d := by
  induction h with
  | nil => exact follows_nil name
  | snoc _ hl ih => exact ih.snoc hl

/-! ### The loader accepts what is well-formed -/

theorem exists_setting_iff {word : String} :
    (∃ s, Text.keyword? settings word = some s) ↔
      Text.lower word ∈ ["sepa", "singleinvocation", "title", "description"] := by
  rw [← Option.isSome_iff_exists, Text.keyword?_isSome]
  exact Iff.rfl

/-- A line says a change if it is a directive and well-formed. -/
theorem Follows.exists_says_iff {lines : List String} {line : String} {d : Definition}
    (h : Follows lines d) :
    (Directive.classify? line = none ∨ ∃ c, d.Says line c) ↔ WellFormed lines line := by
  constructor
  · rintro (hc | ⟨c, hs⟩)
    · exact .source hc
    · cases hs with
      | declare hc hf hn hk hr =>
        exact .param hc hf (Word.read?_eq_some.1 hn) (Kind.read?_eq_some.1 hk)
          (readControl_isOk.1 ⟨_, hr⟩)
      | attach hc hf hb hz hd =>
        exact .texture hc hf (Word.read?_eq_some.1 hb) hz ((h.bindings _).1 hd)
      | set hc hf hs => exact .setting hc hf (exists_setting_iff.1 ⟨_, hs⟩)
      | bindSlot hc hf hp hs hm hv =>
        exact .paramProp hc hf (h.declaredAs.2 ⟨_, hp, rfl⟩) (Slot.read?_eq_some.1 hs)
          (Modification.read?_eq_some.1 hm) (Value.read?_isSome.1 (Option.isSome_of_eq_some hv))
      | bindKey hc hf hp hk hm hv =>
        obtain ⟨key, hkey⟩ := Key.read?_isSome.1 (Option.isSome_of_eq_some hk)
        exact .keybinding hc hf (h.declaredAs.2 ⟨_, hp, rfl⟩) hkey
          (Modification.read?_eq_some.1 hm) (Value.read?_isSome.1 (Option.isSome_of_eq_some hv))
  · intro hw
    cases hw with
    | source hc => exact .inl hc
    | param hc hf hn hk hb =>
      obtain ⟨c, hr⟩ := readControl_isOk.2 hb
      exact .inr ⟨_, .declare hc hf (Word.read?_eq_some.2 hn) (Kind.read?_eq_some.2 hk) hr⟩
    | texture hc hf hb hz hnot =>
      exact .inr ⟨_, .attach hc hf (Word.read?_eq_some.2 hb) hz ((h.bindings _).2 hnot)⟩
    | setting hc hf hw =>
      obtain ⟨s, hs⟩ := exists_setting_iff.2 hw
      exact .inr ⟨_, .set hc hf hs⟩
    | paramProp hc hf hd hs hm hv =>
      obtain ⟨p, hp, rfl⟩ := h.declaredAs.1 hd
      obtain ⟨v, hv⟩ := Option.isSome_iff_exists.1 (Value.read?_isSome.2 hv)
      exact .inr ⟨_, .bindSlot hc hf hp (Slot.read?_eq_some.2 hs)
        (Modification.read?_eq_some.2 hm) hv⟩
    | keybinding hc hf hd hk hm hv =>
      obtain ⟨p, hp, rfl⟩ := h.declaredAs.1 hd
      obtain ⟨v, hv⟩ := Option.isSome_iff_exists.1 (Value.read?_isSome.2 hv)
      obtain ⟨key, hkey⟩ := Option.isSome_iff_exists.1 (Key.read?_isSome.2 ⟨_, hk⟩)
      exact .inr ⟨_, .bindKey hc hf hp hkey (Modification.read?_eq_some.2 hm) hv⟩

theorem Follows.exists_step_iff {lines : List String} {line : String} {d : Definition}
    (h : Follows lines d) : (∃ e, (d.step line).result = .ok e) ↔ WellFormed lines line := by
  rw [← h.exists_says_iff]
  simp only [Definition.result_step_eq_ok, exists_or, exists_and_left, exists_eq, and_true]
  constructor
  · rintro (hc | ⟨_, c, hs, -⟩)
    · exact .inl hc
    · exact .inr ⟨c, hs⟩
  · rintro (hc | ⟨c, hs⟩)
    · exact .inl hc
    · exact .inr ⟨_, c, hs, rfl⟩

/-- What holds of every element and the elements before it, holds of those of the shorter list
and of the last element. -/
theorem forall_split_snoc {α : Type} {p : List α → α → Prop} {xs : List α} {y : α} :
    (∀ before x after, xs ++ [y] = before ++ x :: after → p before x) ↔
      (∀ before x after, xs = before ++ x :: after → p before x) ∧ p xs y := by
  constructor
  · intro h
    refine ⟨fun before x after hxs => h before x (after ++ [y]) ?_, h xs y [] rfl⟩
    rw [hxs, List.append_assoc, List.cons_append]
  · rintro ⟨h, hy⟩ before x after hxs
    rcases List.eq_nil_or_concat after with rfl | ⟨after, z, rfl⟩
    · obtain ⟨rfl, hx⟩ := List.append_inj' hxs rfl
      cases hx
      exact hy
    · rw [List.concat_eq_append, ← List.cons_append, ← List.append_assoc] at hxs
      exact h before x after (List.append_inj' hxs rfl).1

theorem exists_reaches_iff {name : String} {lines : List String} :
    (∃ d, Reaches (.blank name) lines d) ↔
      ∀ before line after, lines = before ++ line :: after → WellFormed before line := by
  induction lines using List.reverseRecOn with
  | nil =>
    constructor
    · rintro - before line after h
      simp at h
    · rintro -
      exact ⟨_, .nil⟩
  | append_singleton lines line ih =>
    -- The earlier lines lead to the definition that the loader judges the last line by.
    rw [forall_split_snoc, ← ih]
    simp only [reaches_snoc_iff]
    constructor
    · rintro ⟨e, d, hd, he⟩
      exact ⟨⟨d, hd⟩, (follows_of_reaches hd).exists_step_iff.1 ⟨e, he⟩⟩
    · rintro ⟨⟨d, hd⟩, hw⟩
      obtain ⟨e, he⟩ := (follows_of_reaches hd).exists_step_iff.2 hw
      exact ⟨e, d, hd, he⟩

/-- **The scripts that parse are those whose lines are all well-formed**, each after the lines
before it. -/
theorem exists_parse_iff (name text : String) :
    (∃ d, (parse name text).result = .ok d) ↔
      ∀ before line after, Text.lines text = before ++ line :: after → WellFormed before line := by
  simp only [result_parse_eq_ok]
  exact exists_reaches_iff

end Script

end ShaderFilter
