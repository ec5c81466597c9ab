import ShaderFilter.Proofs.Resolution

/-!
# Directives that commute

Two directives that have nothing to do with each other can be exchanged. Each writes to one place
of the definition (`Definition.place?`): to the end of the parameters or of the textures, to a
setting, or to the action of a trigger of a parameter. Directives commute if they write to
different places, and if neither declares a parameter that the other one refers to
(`Script.Independent`).

The argument has two halves. What a directive says is not changed by an independent one
before it (`Script.Independent.says_iff`): it looks at the kind of the parameter that it refers to
and at the bindings of the textures only. And changes at different places can be made in any
order (`Definition.change_comm`).
-/

namespace ShaderFilter

/-- A place of a definition to which a directive writes. -/
inductive Place where
  /-- The end of the parameters. -/
  | parameters
  /-- The end of the textures. -/
  | textures
  /-- The setting with a word. -/
  | setting (word : String)
  /-- The action of a trigger of parameter number `i`. -/
  | action (i : Nat) (t : Trigger)
  deriving DecidableEq

/-- The word of a setting. -/
def Setting.word : Setting → String
  | .title _ => "title"
  | .description _ => "description"
  | .separable _ => "sepa"
  | .singleInvocation _ => "singleinvocation"

namespace Definition

/-- The place to which a directive writes, or is about to write when it is refused; none for a
reference to a parameter or trigger that does not exist. -/
def place? (d : Definition) (line : String) : Option Place :=
  match Directive.classify? line with
  | some (.param, _) => some .parameters
  | some (.texture, _) => some .textures
  | some (.setting, args) => (Text.fields args).head?.map fun word => .setting (Text.lower word)
  | some (directive, args) =>
    match Text.fields args with
    | name :: word :: _ =>
      (d.parameters.findIdx? (·.name == name)).bind fun i =>
        (Script.trigger? directive word).map fun t => .action i t
    | _ => none
  | none => none

/-- The place that a change concerns. -/
def placeOf? (d : Definition) : Change → Option Place
  | .declare _ => some .parameters
  | .attach _ => some .textures
  | .set s => some (.setting s.word)
  | .bind b => (d.parameters.findIdx? (·.name == b.parameter)).map fun i => .action i b.trigger

/-- A directive writes to the place of its change. -/
theorem place?_of_says {d : Definition} {line : String} {c : Change} (h : d.Says line c) :
    ∃ place, d.place? line = some place ∧ d.placeOf? c = some place := by
  have hindex {name : String} {p : Parameter} (hp : d.parameter? name = some p) :
      ∃ i, d.parameters.findIdx? (·.name == name) = some i := by
    obtain ⟨i, hi, -⟩ := exists_means hp
    exact ⟨i, (d.findIdx?_names name).symm.trans (means_iff.1 hi)⟩
  cases h with
  | declare hc => exact ⟨_, by simp [place?, hc], rfl⟩
  | attach hc => exact ⟨_, by simp [place?, hc], rfl⟩
  | @set args word field rest s hc hf hs =>
    refine ⟨.setting (Text.lower word), by simp [place?, hc, hf], ?_⟩
    rw [Text.keyword?_eq_some (by decide)] at hs
    simp only [settings, List.mem_cons, Prod.mk.injEq, List.not_mem_nil, or_false] at hs
    rcases hs with ⟨hw, rfl⟩ | ⟨hw, rfl⟩ | ⟨hw, rfl⟩ | ⟨hw, rfl⟩ <;>
      simp [placeOf?, Setting.word, hw]
  | @bindSlot args name word field modification rest p s m v hc hf hp hs =>
    obtain ⟨i, hi⟩ := hindex hp
    refine ⟨.action i (.slot s), ?_, by simp [placeOf?, hi]⟩
    simp [place?, hc, hf, hi, Script.trigger?, hs]
  | @bindKey args name word field modification rest p k m v hc hf hp hk =>
    obtain ⟨i, hi⟩ := hindex hp
    refine ⟨.action i (.key k), ?_, by simp [placeOf?, hi]⟩
    simp [place?, hc, hf, hi, Script.trigger?, hk]

/-! ### Changes in any order -/

theorem updateFirst_comm {m n : String} {f g : Parameter → Parameter} {ps : List Parameter}
    (hf : ∀ p, (f p).name = p.name) (hg : ∀ p, (g p).name = p.name)
    (h : m = n → ∀ p, f (g p) = g (f p)) :
    updateFirst m f (updateFirst n g ps) = updateFirst n g (updateFirst m f ps) := by
  induction ps with
  | nil => rfl
  | cons p ps ih =>
    by_cases hm : p.name = m
    · subst hm
      by_cases hn : p.name = n
      · subst hn
        simp [updateFirst, hf, hg, h rfl p]
      · simp [updateFirst, hn, hf]
    · by_cases hn : p.name = n
      · subst hn
        simp [updateFirst, hm, hg]
      · simp [updateFirst, hm, hn, ih]

/-- A parameter that is declared later is not the first one with a name that is taken. -/
theorem updateFirst_append {name : String} {f : Parameter → Parameter} {ps qs : List Parameter}
    (h : ∃ p ∈ ps, p.name = name) :
    updateFirst name f (ps ++ qs) = updateFirst name f ps ++ qs := by
  induction ps with
  | nil => simp at h
  | cons p ps ih =>
    by_cases hp : p.name = name
    · simp [updateFirst, hp]
    · have hps : ∃ q ∈ ps, q.name = name := by simpa [hp] using h
      simp [updateFirst, hp, ih hps]

/-- A declaration and an action for a parameter that is declared already. -/
theorem change_declare_bind {d : Definition} {b : Binding} {q : Parameter}
    (hq : d.parameter? b.parameter = some q) (p : Parameter) :
    (d.change (.declare p)).change (.bind b) = (d.change (.bind b)).change (.declare p) := by
  have hmem : ∃ q ∈ d.parameters, q.name = b.parameter :=
    ⟨q, List.mem_of_find?_eq_some hq, by simpa using List.find?_some hq⟩
  simp only [change, updateFirst_append hmem]

/-- A setting and a change that is none. -/
theorem change_set_comm (d : Definition) (s : Setting) {c : Change} (hc : ∀ s', c ≠ .set s') :
    (d.change (.set s)).change c = (d.change c).change (.set s) := by
  cases c with
  | set s' => exact absurd rfl (hc s')
  | _ => cases s <;> rfl

/-- Settings with different words. -/
theorem change_set_set (d : Definition) {s s' : Setting} (h : s.word ≠ s'.word) :
    (d.change (.set s)).change (.set s') = (d.change (.set s')).change (.set s) := by
  cases s <;> cases s' <;> first | rfl | exact absurd rfl h

/-- Actions for different parameters or triggers. -/
theorem change_bind_bind (d : Definition) {b b' : Binding}
    (h : b.parameter = b'.parameter → b.trigger ≠ b'.trigger) :
    (d.change (.bind b)).change (.bind b') = (d.change (.bind b')).change (.bind b) := by
  have hps : updateFirst b'.parameter (·.bind b'.trigger b'.action)
        (updateFirst b.parameter (·.bind b.trigger b.action) d.parameters) =
      updateFirst b.parameter (·.bind b.trigger b.action)
        (updateFirst b'.parameter (·.bind b'.trigger b'.action) d.parameters) :=
    updateFirst_comm (fun _ => rfl) (fun _ => rfl) fun hn p => p.bind_comm (h hn.symm) _ _
  simp only [change, hps]

/-- **Changes at different places can be made in any order.** -/
theorem change_comm {d : Definition} {a b : String} {c c' : Change} (hc : d.Says a c)
    (hc' : d.Says b c') (h : d.placeOf? c ≠ d.placeOf? c') :
    (d.change c).change c' = (d.change c').change c := by
  cases c with
  | declare p =>
    cases c' with
    | declare p' => exact absurd rfl h
    | attach t => rfl
    | set s => exact (change_set_comm (c := .declare p) d s nofun).symm
    | bind b' =>
      obtain ⟨q, -, hq, -⟩ := Script.actionFields?_of_says hc'
      exact change_declare_bind hq p
  | attach t =>
    cases c' with
    | declare p => rfl
    | attach t' => exact absurd rfl h
    | set s => exact (change_set_comm (c := .attach t) d s nofun).symm
    | bind b' => rfl
  | set s =>
    cases c' with
    | set s' => exact change_set_set d fun hw => h (congrArg (some <| Place.setting ·) hw)
    | _ => exact change_set_comm d s nofun
  | bind b =>
    cases c' with
    | declare p =>
      obtain ⟨q, -, hq, -⟩ := Script.actionFields?_of_says hc
      exact (change_declare_bind hq p).symm
    | attach t => rfl
    | set s => exact (change_set_comm (c := .bind b) d s nofun).symm
    | bind b' => exact change_bind_bind d fun hn ht => h (by simp only [placeOf?, hn, ht])

/-- A change and a line of the source. -/
theorem change_addLine (d : Definition) (c : Change) (line : String) :
    (d.addLine line).change c = (d.change c).addLine line := by
  cases c with
  | set s => cases s <;> rfl
  | _ => rfl

/-! ### What a directive looks at -/

/-- What a line says depends on the kind of the parameter that it refers to, and on the bindings
that are taken if it declares a texture. -/
theorem Says.congr {d e : Definition} {line : String} {c : Change} (h : d.Says line c)
    (hkind : ∀ name, Script.Refers line name →
      (e.parameter? name).map Parameter.kind = (d.parameter? name).map Parameter.kind)
    (hfree : ∀ args, Directive.classify? line = some (.texture, args) →
      ∀ w, e.Free w ↔ d.Free w) : e.Says line c := by
  have hparameter {name : String} {p : Parameter} (hr : Script.Refers line name)
      (hp : d.parameter? name = some p) : ∃ q, e.parameter? name = some q ∧ q.kind = p.kind := by
    have hk := hkind name hr
    rw [hp, Option.map_some] at hk
    exact Option.map_eq_some_iff.1 hk
  cases h with
  | declare hc hf hn hk hr => exact .declare hc hf hn hk hr
  | attach hc hf hb hz hd => exact .attach hc hf hb hz ((hfree _ hc _).2 hd)
  | set hc hf hs => exact .set hc hf hs
  | bindSlot hc hf hp hs hm hv =>
    obtain ⟨q, hq, hk⟩ := hparameter ⟨.paramProp, _, hc, .inl rfl, by rw [hf]; rfl⟩ hp
    exact .bindSlot hc hf hq hs hm (hk ▸ hv)
  | bindKey hc hf hp hkey hm hv =>
    obtain ⟨q, hq, hk⟩ := hparameter ⟨.keybinding, _, hc, .inr rfl, by rw [hf]; rfl⟩ hp
    exact .bindKey hc hf hq hkey hm (hk ▸ hv)

end Definition

namespace Script

open Directive (isDirective)

/-- Two directives have nothing to do with each other, as seen from a definition. -/
structure Independent (d : Definition) (a b : String) : Prop where
  /-- They do not write to the same place. -/
  places : ∀ place, d.place? a = some place → d.place? b ≠ some place
  /-- If the first one declares a parameter, a name that the second one refers to is declared
  already. -/
  left : ∀ args name, Directive.classify? a = some (.param, args) → Refers b name →
    (d.parameter? name).isSome
  /-- If the second one declares a parameter, a name that the first one refers to is declared
  already. -/
  right : ∀ args name, Directive.classify? b = some (.param, args) → Refers a name →
    (d.parameter? name).isSome

namespace Independent

variable {d : Definition} {a b : String}

theorem symm (h : Independent d a b) : Independent d b a where
  places place hb ha := h.places place ha hb
  left := h.right
  right := h.left

theorem placeOf?_ne {c c' : Change} (h : Independent d a b) (hc : d.Says a c)
    (hc' : d.Says b c') : d.placeOf? c ≠ d.placeOf? c' := by
  obtain ⟨place, ha, hplace⟩ := Definition.place?_of_says hc
  obtain ⟨place', hb, hplace'⟩ := Definition.place?_of_says hc'
  rw [hplace, hplace']
  rintro ⟨⟩
  exact h.places place ha hb

/-- A directive says the same before an independent one and after it. -/
theorem says_iff {c c' : Change} (h : Independent d a b) (hc : d.Says a c) :
    ((d.change c).addLine "").Says b c' ↔ d.Says b c' := by
  have hkind : ∀ name, Refers b name →
      (((d.change c).addLine "").parameter? name).map Parameter.kind =
        (d.parameter? name).map Parameter.kind := by
    intro name hrefers
    rw [Definition.parameter?_addLine]
    cases hc with
    | declare hclass =>
      obtain ⟨q, hq⟩ := Option.isSome_iff_exists.1 (h.left _ name hclass hrefers)
      rw [Definition.parameter?_declare, hq, Option.some_or]
    | attach => rw [Definition.parameter?_attach]
    | set => rw [Definition.parameter?_set]
    | bindSlot => exact d.kind_parameter?_bind _ name
    | bindKey => exact d.kind_parameter?_bind _ name
  have hfree : ∀ args, Directive.classify? b = some (.texture, args) →
      ∀ w, ((d.change c).addLine "").Free w ↔ d.Free w := by
    intro args hb w
    rw [Definition.free_addLine]
    cases hc with
    | attach ha =>
      have hplace : d.place? b = some .textures := by simp [Definition.place?, hb]
      exact absurd hplace (h.places _ (by simp [Definition.place?, ha]))
    | set => exact d.free_set _ w
    | _ => exact Iff.rfl
  constructor
  · intro hs
    exact hs.congr (fun name hr => (hkind name hr).symm) fun args hb w => (hfree args hb w).symm
  · intro hs
    exact hs.congr hkind hfree

/-- Both directives are taken in if each says something by itself. -/
theorem reaches_iff {e : Definition} (h : Independent d a b) (ha : isDirective a)
    (hb : isDirective b) :
    Reaches d [a, b] e ↔ ∃ c c', d.Says a c ∧ d.Says b c' ∧
      e = (((d.change c).change c').addLine "").addLine "" := by
  simp only [reaches_cons_iff, reaches_nil_iff, Definition.result_step_directive ha,
    Definition.result_step_directive hb]
  constructor
  · rintro ⟨f, ⟨c, hc, rfl⟩, g, ⟨c', hc', rfl⟩, rfl⟩
    exact ⟨c, c', hc, (h.says_iff hc).1 hc', by rw [Definition.change_addLine]⟩
  · rintro ⟨c, c', hc, hc', rfl⟩
    exact ⟨_, ⟨c, hc, rfl⟩, _, ⟨c', (h.says_iff hc).2 hc', rfl⟩, by rw [Definition.change_addLine]⟩

end Independent

/-- **Independent directives commute.** Take two directives that do not write to the same place:
that are not both declarations of parameters, nor both of textures, nor settings with one word,
nor actions of one trigger of one parameter. If one of them declares a parameter, let the other
one not refer to a name that is still to be declared. Then both orders lead to the same
definition, or both are refused. -/
theorem independent_directives_commute {d : Definition} {a b : String} (ha : isDirective a)
    (hb : isDirective b) (h : Independent d a b) (n : Nat) (e : Definition) :
    (run d n [a, b]).result = .ok e ↔ (run d n [b, a]).result = .ok e := by
  rw [result_run_eq_ok, result_run_eq_ok, h.reaches_iff ha hb, h.symm.reaches_iff hb ha]
  constructor
  · rintro ⟨c, c', hc, hc', rfl⟩
    exact ⟨c', c, hc', hc, by rw [Definition.change_comm hc hc' (h.placeOf?_ne hc hc')]⟩
  · rintro ⟨c', c, hc', hc, rfl⟩
    exact ⟨c, c', hc, hc', by rw [Definition.change_comm hc hc' (h.placeOf?_ne hc hc')]⟩

/-- A name is declared again before or after an action for it. -/
theorem independent_directives_commute_redeclared :
    ∃ e, (run (feed (.blank "f") ["#param x,0,int"]) 2
        ["#param x,1,float", "#keybinding x,Up,3,set"]).result = .ok e ∧
      (run (feed (.blank "f") ["#param x,0,int"]) 2
        ["#keybinding x,Up,3,set", "#param x,1,float"]).result = .ok e := by
  have hkey : Directive.classify? "#keybinding x,Up,3,set" = some (.keybinding, " x,Up,3,set") := by
    decide +kernel
  have hname : (Text.fields " x,Up,3,set").head? = some "x" := by decide +kernel
  have hplaces : (feed (.blank "f") ["#param x,0,int"]).place? "#param x,1,float" ≠
      (feed (.blank "f") ["#param x,0,int"]).place? "#keybinding x,Up,3,set" := by decide +kernel
  have h : Independent (feed (.blank "f") ["#param x,0,int"]) "#param x,1,float"
      "#keybinding x,Up,3,set" := by
    refine ⟨fun place ha hb => hplaces (ha.trans hb.symm), ?_, ?_⟩
    · rintro - name - ⟨directive, args, hclass, -, hhead⟩
      cases hkey.symm.trans hclass
      cases hname.symm.trans hhead
      decide +kernel
    · intro args name hclass
      cases hkey.symm.trans hclass
  have hrun : (run (feed (.blank "f") ["#param x,0,int"]) 2
      ["#param x,1,float", "#keybinding x,Up,3,set"]).result = .ok _ := rfl
  exact ⟨_, hrun, (independent_directives_commute (by decide +kernel) (by decide +kernel) h 2 _).1
    hrun⟩

end Script

end ShaderFilter
