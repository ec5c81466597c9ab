import ShaderFilter.Script
import ShaderFilter.Proofs.Document
import ShaderFilter.Proofs.FloatBounds
import ShaderFilter.Proofs.Keys
import ShaderFilter.Proofs.Number.Notation
import ShaderFilter.Proofs.Prefixes

/-!
# Exported definitions

The export of a definition loses nothing (`Definition.export_injective`), as long as all its
floats are finite: a document has no number for an infinity, and shows null for each of them.

The text gives the document, since no text belongs to two documents. The document gives the
definition field by field: a value is read with the kind of its parameter, for which a word stands
before all values, and the two objects of actions give the action of every trigger.
-/

namespace ShaderFilter

open Number (Single Word)

/-! ### Finite floats -/

instance : (v : Value) → Decidable v.FloatIsFinite
  | .float (.finite s r) => .isTrue fun _ h => ⟨s, r, (Value.float.inj h).symm⟩
  | .float .nan => .isFalse fun h => nomatch h .nan rfl
  | .float (.infinite s) => .isFalse fun h => nomatch h (.infinite s) rfl
  | .int _ => .isTrue fun _ h => nomatch h
  | .bool _ => .isTrue fun _ h => nomatch h

/-- Bounds, default and the values of all actions are finite where they are floats. -/
structure Parameter.FloatsAreFinite (p : Parameter) : Prop where
  /-- The lower bound. -/
  min : p.min.FloatIsFinite
  /-- The upper bound. -/
  max : p.max.FloatIsFinite
  /-- The default. -/
  default : p.default.FloatIsFinite
  /-- The values of the actions. -/
  actions : ∀ e ∈ p.listing, e.2.value.FloatIsFinite

instance (p : Parameter) : Decidable p.FloatsAreFinite :=
  decidable_of_iff (p.min.FloatIsFinite ∧ p.max.FloatIsFinite ∧ p.default.FloatIsFinite ∧
      ∀ e ∈ p.listing, e.2.value.FloatIsFinite)
    ⟨fun ⟨h₁, h₂, h₃, h₄⟩ => ⟨h₁, h₂, h₃, h₄⟩, fun ⟨h₁, h₂, h₃, h₄⟩ => ⟨h₁, h₂, h₃, h₄⟩⟩

/-- All floats of a definition are finite. -/
def Definition.FloatsAreFinite (d : Definition) : Prop := ∀ p ∈ d.parameters, p.FloatsAreFinite

instance (d : Definition) : Decidable d.FloatsAreFinite :=
  inferInstanceAs (Decidable (∀ p ∈ d.parameters, p.FloatsAreFinite))

namespace Document

/-! ### The documents of values -/

theorem readable_of_numberChar {t : String} (hne : t.toList ≠ [])
    (h : ∀ c ∈ t.toList, Number.NumberChar c) : (atom t).Readable := by
  refine .atom hne fun c hc hd => ?_
  have hnumber := h c hc
  simp only [delimiters, List.mem_cons, List.not_mem_nil, or_false] at hd
  unfold Number.NumberChar at hnumber
  rcases hd with rfl | rfl | rfl | rfl | rfl <;> exact absurd hnumber (by decide)

@[simp] theorem readable_ofWord (n : Word) : (atom n.text).Readable :=
  readable_of_numberChar (Number.numeral_integerText n.val).ne_nil
    (Number.numeral_integerText n.val).numberChar

@[simp] theorem readable_ofBool (b : Bool) : (ofBool b).Readable := by
  cases b <;> exact .atom (by decide) (by simp [Value.boolText, delimiters])

@[simp] theorem readable_ofValue (v : Value) : (ofValue v).Readable := by
  cases v with
  | float x =>
    cases x with
    | finite s r =>
      obtain ⟨hne, h⟩ := Number.Style.document.finiteText_spec s r
      exact readable_of_numberChar hne h
    | nan | infinite => exact .atom (by decide) (by simp [delimiters])
  | int n => exact readable_ofWord n
  | bool b => exact readable_ofBool b

theorem ofBool_injective {a b : Bool} (h : ofBool a = ofBool b) : a = b := by
  revert h
  cases a <;> cases b <;> simp [ofBool, Value.boolText]

/-- A value is given by its document and its kind. -/
theorem ofValue_injective {v w : Value} (hk : v.kind = w.kind) (hv : v.FloatIsFinite)
    (hw : w.FloatIsFinite) (h : ofValue v = ofValue w) : v = w := by
  cases v with
  | float x =>
    cases w with
    | float y =>
      obtain ⟨s, r, rfl⟩ := hv x rfl
      obtain ⟨t, q, rfl⟩ := hw y rfl
      obtain ⟨rfl, hrank⟩ := Number.Style.document.finiteText_injective (Document.atom.inj h)
      rw [Fin.ext hrank]
    | int | bool => cases hk
  | int n =>
    cases w with
    | int m => rw [Number.Word.text_injective (Document.atom.inj h)]
    | float | bool => cases hk
  | bool a =>
    cases w with
    | bool b => rw [ofBool_injective h]
    | float | int => cases hk

/-! ### The documents of parameters and textures -/

@[simp] theorem readable_ofAction (a : Action Value) : (ofAction a).Readable := by
  simp [ofAction]

@[simp] theorem readable_ofParameter (p : Parameter) : (ofParameter p).Readable := by
  have hactions {τ : Type} (name : τ → String) (as : List (τ × Action Value)) :
      (object (as.map fun (t, a) => (name t, ofAction a))).Readable :=
    .object (List.forall_mem_map.2 fun _ _ => readable_ofAction _)
  refine .object ?_
  simp only [List.forall_mem_cons, readable_string, readable_ofWord, readable_ofValue, hactions]
  simp

@[simp] theorem readable_ofTexture (t : Texture) : (ofTexture t).Readable := by
  simp [ofTexture]

theorem readable_ofDefinition (d : Definition) : (ofDefinition d).Readable := by
  simp [ofDefinition]

/-- An action is given by its document and the kind of its value. -/
theorem ofAction_injective {a b : Action Value} (hk : a.value.kind = b.value.kind)
    (ha : a.value.FloatIsFinite) (hb : b.value.FloatIsFinite) (h : ofAction a = ofAction b) :
    a = b := by
  have hmodification {m n : Modification} (h : m.name = n.name) : m = n := by
    revert h
    cases m <;> cases n <;> simp [Modification.name]
  obtain ⟨v, m⟩ := a
  obtain ⟨w, n⟩ := b
  simp only [ofAction, Document.object.injEq, List.cons.injEq, Prod.mk.injEq, true_and,
    Document.string.injEq, and_true] at h
  obtain rfl : v = w := ofValue_injective hk ha hb h.1
  obtain rfl := hmodification h.2
  rfl

/-- A texture is given by its document. -/
theorem ofTexture_injective {t u : Texture} (h : ofTexture t = ofTexture u) : t = u := by
  obtain ⟨name, b⟩ := t
  obtain ⟨name', b'⟩ := u
  simp only [ofTexture, Document.object.injEq, List.cons.injEq, Prod.mk.injEq, true_and,
    Document.string.injEq, Document.atom.injEq, and_true] at h
  rw [h.1, Number.Word.text_injective h.2]

/-- Lists are equal if what is shown of their elements is, and if that tells the elements apart. -/
theorem eq_of_map_eq {α β : Type} {f : α → β} {P : α → Prop}
    (hf : ∀ ⦃x y⦄, P x → P y → f x = f y → x = y) {xs ys : List α} (hx : ∀ x ∈ xs, P x)
    (hy : ∀ y ∈ ys, P y) (h : xs.map f = ys.map f) : xs = ys := by
  induction xs generalizing ys with
  | nil => exact (List.map_eq_nil_iff.1 h.symm).symm
  | cons x xs ih =>
    cases ys with
    | nil => cases h
    | cons y ys =>
      obtain ⟨hfirst, hrest⟩ := List.cons.inj h
      obtain ⟨hx, hxs⟩ := List.forall_mem_cons.1 hx
      obtain ⟨hy, hys⟩ := List.forall_mem_cons.1 hy
      rw [hf hx hy hfirst, ih hxs hys hrest]

end Document

/-! ### Parameters -/

theorem Scalar.toValue_injective {α : Type} [Scalar α] [LawfulScalar α] {x y : α}
    (h : Scalar.toValue x = Scalar.toValue y) : x = y := by
  have hx := LawfulScalar.ofValue?_eq_some_iff.2 (rfl : Scalar.toValue x = Scalar.toValue x)
  rw [h, LawfulScalar.ofValue?_eq_some_iff.2 rfl] at hx
  exact (Option.some.inj hx).symm

/-- A control is its bounds, its default and the lookups of its actions. -/
theorem Control.ext_action? {α : Type} [Scalar α] [LawfulScalar α] {c e : Control α}
    (hmin : Scalar.toValue c.min = Scalar.toValue e.min)
    (hmax : Scalar.toValue c.max = Scalar.toValue e.max)
    (hdefault : Scalar.toValue c.default = Scalar.toValue e.default)
    (ha : ∀ t, c.action? t = e.action? t) : c = e := by
  have hvalue {a b : Action α} (h : (⟨Scalar.toValue a.value, a.modification⟩ : Action Value) =
      ⟨Scalar.toValue b.value, b.modification⟩) : a = b := by
    obtain ⟨hv, hm⟩ := Action.mk.inj h
    cases a
    cases b
    exact congrArg₂ Action.mk (Scalar.toValue_injective hv) hm
  have hactions : c.actions = e.actions :=
    OrderedMap.ext_get? fun t => Option.map_injective (fun _ _ => hvalue) (ha t)
  cases c
  cases e
  rw [Control.mk.injEq]
  exact ⟨Scalar.toValue_injective hmin, Scalar.toValue_injective hmax,
    Scalar.toValue_injective hdefault, hactions⟩

namespace Parameter

/-- A parameter is what it is declared as, and the lookups of its actions. -/
theorem ext_action? {p q : Parameter} (h : p.declaration = q.declaration)
    (ha : ∀ t, p.action? t = q.action? t) : p = q := by
  obtain ⟨name, location, control⟩ := p
  obtain ⟨name', location', control'⟩ := q
  simp only [declaration, Declaration.mk.injEq] at h
  obtain ⟨rfl, rfl, hkind, hmin, hmax, hdefault⟩ := h
  cases control with
  | float c =>
    cases control' with
    | float e => rw [Control.ext_action? hmin hmax hdefault ha]
    | int | bool => cases hkind
  | int c =>
    cases control' with
    | int e => rw [Control.ext_action? hmin hmax hdefault ha]
    | float | bool => cases hkind
  | bool c =>
    cases control' with
    | bool e => rw [Control.ext_action? hmin hmax hdefault ha]
    | float | int => cases hkind

/-- Bounds and default are of the kind of the parameter. -/
theorem kind_bounds (p : Parameter) : p.min.kind = p.kind ∧ p.max.kind = p.kind := by
  obtain ⟨name, location, control⟩ := p
  cases control <;> exact ⟨rfl, rfl⟩

/-- The value of an action is of the kind of the parameter, and finite where the parameter is. -/
theorem spec_of_action? {p : Parameter} (hp : p.FloatsAreFinite) {t : Trigger} {a : Action Value}
    (h : p.action? t = some a) : a.value.kind = p.kind ∧ a.value.FloatIsFinite :=
  ⟨kind_of_action? h, hp.actions (t, a) (mem_listing.2 h)⟩

end Parameter

namespace Document

/-- The entries that an object of actions shows are given by it, if their names tell them apart. -/
theorem actions_injective {τ : Type} {name : τ → String} (hname : ∀ ⦃t u⦄, name t = name u → t = u)
    {k : Kind} {as bs : List (τ × Action Value)}
    (ha : ∀ e ∈ as, e.2.value.kind = k ∧ e.2.value.FloatIsFinite)
    (hb : ∀ e ∈ bs, e.2.value.kind = k ∧ e.2.value.FloatIsFinite)
    (h : as.map (fun (t, a) => (name t, ofAction a)) =
      bs.map fun (t, a) => (name t, ofAction a)) : as = bs := by
  refine eq_of_map_eq ?_ ha hb h
  rintro ⟨t, a⟩ ⟨u, b⟩ ⟨hka, hfa⟩ ⟨hkb, hfb⟩ h
  obtain ⟨ht, hab⟩ := Prod.mk.inj h
  exact Prod.ext (hname ht) (ofAction_injective (hka.trans hkb.symm) hfa hfb hab)

/-- A parameter with finite floats is given by its document. -/
theorem ofParameter_injective {p q : Parameter} (hp : p.FloatsAreFinite) (hq : q.FloatsAreFinite)
    (h : ofParameter p = ofParameter q) : p = q := by
  simp only [ofParameter, Document.object.injEq, List.cons.injEq, Prod.mk.injEq, true_and,
    Document.string.injEq, Document.atom.injEq, and_true] at h
  obtain ⟨hname, hlocation, hkind, hmin, hmax, hdefault, hslots, hkeys⟩ := h
  have hkind : p.kind = q.kind := by
    revert hkind
    cases p.kind <;> cases q.kind <;> simp [Kind.name]
  obtain ⟨hpmin, hpmax⟩ := p.kind_bounds
  obtain ⟨hqmin, hqmax⟩ := q.kind_bounds
  have hslot {s t : Slot} (h : s.name = t.name) : s = t := by
    revert h
    cases s <;> cases t <;> simp [Slot.name]
  have hfinite {p : Parameter} (hp : p.FloatsAreFinite) :
      (∀ e ∈ p.slotActions, e.2.value.kind = p.kind ∧ e.2.value.FloatIsFinite) ∧
        ∀ e ∈ p.keyActions, e.2.value.kind = p.kind ∧ e.2.value.FloatIsFinite :=
    ⟨fun _ he => Parameter.spec_of_action? hp (Parameter.mem_slotActions.1 he),
      fun _ he => Parameter.spec_of_action? hp (Parameter.mem_keyActions.1 he)⟩
  refine Parameter.ext_action? ?_ (Parameter.action?_eq_of_shown ?_ ?_)
  · simp only [Parameter.declaration, Declaration.mk.injEq]
    refine ⟨hname, Number.Word.text_injective hlocation, hkind,
      ofValue_injective ?_ hp.min hq.min hmin, ofValue_injective ?_ hp.max hq.max hmax,
      ofValue_injective ?_ hp.default hq.default hdefault⟩
    · rw [hpmin, hqmin, hkind]
    · rw [hpmax, hqmax, hkind]
    · rw [Parameter.kind_default, Parameter.kind_default, hkind]
  · exact actions_injective (fun _ _ => hslot) (hfinite hp).1 (hkind ▸ (hfinite hq).1) hslots
  · exact actions_injective (fun _ _ => Key.name_injective) (hfinite hp).2
      (hkind ▸ (hfinite hq).2) hkeys

/-- A definition with finite floats is given by its document. -/
theorem ofDefinition_injective {d e : Definition} (hd : d.FloatsAreFinite)
    (he : e.FloatsAreFinite) (h : ofDefinition d = ofDefinition e) : d = e := by
  obtain ⟨name, description, separable, single, parameters, textures, source⟩ := d
  obtain ⟨name', description', separable', single', parameters', textures', source'⟩ := e
  simp only [ofDefinition, Document.object.injEq, List.cons.injEq, Prod.mk.injEq, true_and,
    Document.string.injEq, Document.array.injEq, and_true] at h
  obtain ⟨rfl, rfl, hseparable, hsingle, hparameters, htextures, rfl⟩ := h
  obtain rfl := ofBool_injective hseparable
  obtain rfl := ofBool_injective hsingle
  obtain rfl := eq_of_map_eq (fun _ _ => ofParameter_injective) hd he hparameters
  obtain rfl := List.map_injective_iff.2 (fun _ _ => ofTexture_injective) htextures
  rfl

end Document

/-- **The exported text loses nothing.** Two definitions whose floats are finite have the same
text only if they are the same: titles, descriptions, settings, source, textures and parameters
in their orders, and for each parameter its bounds, its default and all actions. Strings may
contain anything, also what looks like a part of the text. -/
theorem Definition.export_injective {d e : Definition} (hd : d.FloatsAreFinite)
    (he : e.FloatsAreFinite) (h : d.exportText = e.exportText) : d = e :=
  Document.ofDefinition_injective hd he <|
    (Document.readable_ofDefinition d).eq_of_text_eq (Document.readable_ofDefinition e) h

namespace Script

/-- A script whose title looks like the end of a string in a document. -/
def exported : String :=
  "#setting title,a\",\"b\n#param s,1,float,1.5,0,2\n#keybinding s,Enter,0.5,add"

/-- The same script in other spellings of its words, numbers and keys. -/
def exportedToo : String :=
  "#setting Title,a\",\"b\n#param s,+1,FLOAT,15e-1,0e9,2.\n#keybinding s,Return,.5,ADD"

/-- Scripts with the same export define the same. -/
theorem export_injective_spellings :
    ∃ d e, (parse "f" exported).result = .ok d ∧ (parse "f" exportedToo).result = .ok e ∧
      d.exportText = e.exportText ∧ d = e := by
  -- The texts are compared byte by byte, which is faster than as strings.
  have hcheck : ((parse "f" exported).result.toOption.any fun d =>
      (parse "f" exportedToo).result.toOption.any fun e =>
        d.FloatsAreFinite ∧ e.FloatsAreFinite ∧
          d.exportText.toByteArray.data.toList = e.exportText.toByteArray.data.toList) = true := by
    decide +kernel
  obtain ⟨d, hd, hcheck⟩ := (Option.any_eq_true _ _).1 hcheck
  obtain ⟨e, he, hcheck⟩ := (Option.any_eq_true _ _).1 hcheck
  obtain ⟨hfinite, hfinite', hbytes⟩ := of_decide_eq_true hcheck
  have h : d.exportText = e.exportText :=
    String.toByteArray_inj.1 (ByteArray.ext (Array.toList_inj.1 hbytes))
  exact ⟨d, e, toOption_eq_some.1 hd, toOption_eq_some.1 he, h,
    Definition.export_injective hfinite hfinite' h⟩

end Script

end ShaderFilter
