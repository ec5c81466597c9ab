import ShaderFilter.Proofs.Literal
import ShaderFilter.Proofs.Padding
import ShaderFilter.Proofs.Refusal

/-!
# Letter case

The words of a vocabulary and the truth values may be written in either case of letters; names,
keys and texts may not. `CaseFree` says which fields of a directive hold such words: for default
and value this depends on the kind of the parameter, for the value of a setting on its word.

A line that is accepted makes the same change with these words in the other case
(`Recased.exists_change`). This is not so of errors, which show a word as it is written. With the
spaces around fields it makes `Definition.layout_and_letter_case_ignored`.
-/

namespace ShaderFilter

open Number (Word)
open Text (lower)

/-! ### Words in either case -/

/-- The settings that are flags. -/
def flagWords : List String := ["sepa", "singleinvocation"]

/-- Field number `i` of a directive, counted from zero, may be written in either case of letters. -/
inductive CaseFree (d : Definition) : Directive → List String → Nat → Prop where
  /-- The kind of a parameter. -/
  | kind {fields : List String} : CaseFree d .param fields 2
  /-- The default of a bool parameter. -/
  | default {fields : List String} {word : String} :
      fields[2]? = some word → lower word = Kind.bool.name → CaseFree d .param fields 3
  /-- The slot of an action. -/
  | slot {fields : List String} : CaseFree d .paramProp fields 1
  /-- The modification of an action. -/
  | modification {directive : Directive} {fields : List String} :
      directive.IsReference → CaseFree d directive fields 3
  /-- The value of an action, if the first parameter with the name is a bool parameter. -/
  | value {directive : Directive} {fields : List String} {name : String} {p : Parameter} :
      directive.IsReference → fields[0]? = some name → d.parameter? name = some p →
      p.kind = .bool → CaseFree d directive fields 2
  /-- The word of a setting. -/
  | setting {fields : List String} : CaseFree d .setting fields 0
  /-- The value of a setting that is a flag. -/
  | flag {fields : List String} {word : String} :
      fields[0]? = some word → lower word ∈ flagWords → CaseFree d .setting fields 1

namespace CaseFree

variable {d : Definition} {directive : Directive} {fields : List String} {i : Nat}

/-- Default and bounds have one spelling if the parameter is no bool parameter. -/
theorem not_of_ne_bool {word : String} {k : Kind} (hword : fields[2]? = some word)
    (hk : Kind.read? word = some k) (hb : k ≠ .bool) (hi : 3 ≤ i) :
    ¬ CaseFree d .param fields i := by
  intro h
  cases h with
  | kind => exact absurd hi (by decide)
  | default hword' hbool =>
    cases hword.symm.trans hword'
    exact hb (Option.some.inj (hk.symm.trans (Kind.read?_eq_some.2 hbool)))
  | modification href => cases href
  | value href => cases href

/-- Texts have one spelling. -/
theorem not_of_not_flag {word : String} (hword : fields[0]? = some word)
    (hflag : lower word ∉ flagWords) (hi : 1 ≤ i) : ¬ CaseFree d .setting fields i := by
  intro h
  cases h with
  | setting => exact absurd hi (by decide)
  | flag hword' hflag' =>
    cases hword.symm.trans hword'
    exact hflag hflag'
  | modification href => cases href
  | value href => cases href

/-- The value of an action has one spelling if its parameter is no bool parameter. -/
theorem not_of_kind_ne_bool {name : String} {p : Parameter} (href : directive.IsReference)
    (hname : fields[0]? = some name) (hp : d.parameter? name = some p) (hb : p.kind ≠ .bool) :
    ¬ CaseFree d directive fields 2 := by
  intro h
  cases h with
  | kind => cases href
  | value _ hname' hp' hbool =>
    cases hname.symm.trans hname'
    cases hp.symm.trans hp'
    exact hb hbool

theorem not_texture : ¬ CaseFree d .texture fields i := by
  intro h
  cases h with
  | modification href => cases href
  | value href => cases href

end CaseFree

/-- Arguments of a directive with some letters in the other case, all of them in fields that may
be written in either case. -/
structure Recased (d : Definition) (directive : Directive) (args recased : String) : Prop where
  /-- Nothing but the case of letters is different. -/
  letters : lower recased = lower args
  /-- What stands between two commas is the same text elsewhere. -/
  others : ∀ i, ¬ CaseFree d directive (Text.fields args) i →
    (Text.pieces ',' recased.toList)[i]? = (Text.pieces ',' args.toList)[i]?

/-! ### Readers that do not look at the case -/

theorem Value.read?_congr {k : Kind} {field field' : String} (hl : lower field' = lower field)
    (hsame : k ≠ .bool → field' = field) : Value.read? k field' = Value.read? k field := by
  cases k with
  | bool => rw [Value.read?, Value.readBool?, Text.keyword?_congr hl, Value.read?, Value.readBool?]
  | float | int => rw [hsame (by decide)]

theorem readSwitch_congr {fields fields' : List String} {c : Control Bool}
    (hl : fields'.map lower = fields.map lower) (h : readSwitch fields = .ok c) :
    readSwitch fields' = .ok c := by
  match fields, fields' with
  | [], [] => exact h
  | field :: _, field' :: _ =>
    have hfield : lower field' = lower field := (List.cons.inj hl).1
    simp only [readSwitch, readOr, readScalar, List.getElem?_cons_zero, bind_eq_ok,
      orError_eq_ok, Scalar.read?, Value.readBool?] at h ⊢
    rwa [Text.keyword?_congr hfield]

theorem readControl_congr {k : Kind} {fields fields' : List String} {c : AnyControl}
    (hl : fields'.map lower = fields.map lower) (hsame : k ≠ .bool → fields' = fields)
    (h : readControl k fields = .ok c) : readControl k fields' = .ok c := by
  cases k with
  | bool =>
    obtain ⟨control, hcontrol, rfl⟩ := map_eq_ok.1 h
    exact map_eq_ok.2 ⟨control, readSwitch_congr hl hcontrol, rfl⟩
  | float | int => rwa [hsame (by decide)]

/-- A setting that is a flag looks at nothing but the lower case of its field. -/
theorem setting_eq_of_flag {word field field' text text' : String}
    {s : String → String → Setting} (h : Text.keyword? settings word = some s)
    (hflag : lower word ∈ flagWords) (hl : lower field' = lower field) :
    s field' text' = s field text := by
  simp only [flagWords, List.mem_cons, List.not_mem_nil, or_false] at hflag
  rcases hflag with hword | hword
  · obtain rfl : (fun field _ => .separable (isTrue field)) = s := by
      simpa [Text.keyword?, settings, hword] using h
    simp only [isTrue, hl]
  · obtain rfl : (fun field _ => .singleInvocation (isTrue field)) = s := by
      simpa [Text.keyword?, settings, hword] using h
    simp only [isTrue, hl]

/-! ### Fields in the other case -/

namespace Recased

variable {d : Definition} {directive : Directive} {line args recased : String}
  {fields fields' : List String}

theorem lower_fields (h : Recased d directive args recased) (hf : Text.fields args = fields) :
    (Text.fields recased).map lower = fields.map lower := by
  rw [← hf, ← Text.fields_lower, ← Text.fields_lower, h.letters]

theorem field (h : Recased d directive args recased) (hf : Text.fields args = fields)
    (hf' : Text.fields recased = fields') {i : Nat} (hi : ¬ CaseFree d directive fields i) :
    fields'[i]? = fields[i]? := by
  subst hf hf'
  simp only [Text.fields, List.getElem?_map, h.others i hi]

theorem drop (h : Recased d directive args recased) (hf : Text.fields args = fields)
    (hf' : Text.fields recased = fields') {n : Nat}
    (hn : ∀ i, n ≤ i → ¬ CaseFree d directive fields i) : fields'.drop n = fields.drop n := by
  apply List.ext_getElem?
  intro i
  rw [List.getElem?_drop, List.getElem?_drop, h.field hf hf' (hn _ (Nat.le_add_right n i))]

theorem tail (h : Recased d directive args recased) (hf : Text.fields args = fields)
    (hn : ∀ i, 1 ≤ i → ¬ CaseFree d directive fields i) : Text.tail recased = Text.tail args := by
  have hpieces : (Text.pieces ',' recased.toList).tail = (Text.pieces ',' args.toList).tail := by
    apply List.ext_getElem?
    intro i
    rw [List.getElem?_tail, List.getElem?_tail, h.others (i + 1) (hf ▸ hn _ (Nat.le_add_left 1 i))]
  rw [Text.tail_eq, Text.tail_eq, Text.behind_eq, Text.behind_eq, hpieces]

/-- The value of an action reads as the same value of the kind of its parameter. -/
theorem read?_value (h : Recased d directive args recased) (hf : Text.fields args = fields)
    (hf' : Text.fields recased = fields') (href : directive.IsReference)
    {name field field' : String} {p : Parameter} (hname : fields[0]? = some name)
    (hp : d.parameter? name = some p) (hfield : fields[2]? = some field)
    (hfield' : fields'[2]? = some field') :
    Value.read? p.kind field' = Value.read? p.kind field := by
  have hl : lower field' = lower field := by
    have hmap := congrArg (·[2]?) (h.lower_fields hf)
    simpa [hf', hfield, hfield'] using hmap
  refine Value.read?_congr hl fun hb => ?_
  have hsame : fields'[2]? = fields[2]? :=
    h.field hf hf' (CaseFree.not_of_kind_ne_bool href hname hp hb)
  exact Option.some.inj (hfield'.symm.trans (hsame.trans hfield))

/-- The name of a parameter has one spelling only, so `#param` does not turn into `#paramprop`. -/
theorem classify? (h : Recased d directive args recased)
    (hc : Directive.classify? line = some (directive, args)) :
    Directive.classify? (directive.marker ++ recased) = some (directive, recased) := by
  apply Directive.classify?_append
  rintro rfl hprefix
  have hfirst := h.others 0 (by rintro ⟨⟩)
  rw [← List.head?_eq_getElem?, ← List.head?_eq_getElem?, Text.head?_pieces, Text.head?_pieces,
    Option.some.injEq] at hfirst
  have hcomma : ',' ∉ Directive.ending := by decide
  rw [← Text.prefix_takeWhile_iff hcomma, hfirst, Text.prefix_takeWhile_iff hcomma] at hprefix
  exact (Directive.classify?_eq_some_iff.1 hc).2 rfl hprefix

/-- A line says the same if letters of words are in the other case. What is noted of an action may
be different, since the value is noted as it is written. -/
theorem exists_change (h : Recased d directive args recased)
    (hc : Directive.classify? line = some (directive, args)) {c : Change} (hs : d.Says line c) :
    ∃ c', d.Says (directive.marker ++ recased) c' ∧ d.change c' = d.change c := by
  have hc' := h.classify? hc
  cases hs with
  | @declare _ name location word rest n k control hcl hf hn hk hr =>
    cases hc.symm.trans hcl
    have hl := h.lower_fields hf
    simp only [List.map_cons, List.map_eq_cons_iff] at hl
    obtain ⟨name', _, hf', -, location', _, rfl, -, word', rest', rfl, hword, hrest⟩ := hl
    obtain rfl : name' = name := Option.some.inj (h.field hf hf' (i := 0) (by rintro ⟨⟩))
    obtain rfl : location' = location := Option.some.inj (h.field hf hf' (i := 1) (by rintro ⟨⟩))
    have hk' : Kind.read? word' = some k := (Text.keyword?_congr hword).trans hk
    have hsame : k ≠ .bool → rest' = rest := fun hb =>
      h.drop hf hf' (n := 3) fun _ => CaseFree.not_of_ne_bool rfl hk hb
    exact ⟨_, .declare hc' hf' hn hk' (readControl_congr hrest hsame hr), rfl⟩
  | @attach _ name binding rest b hcl hf hb hz hd =>
    cases hc.symm.trans hcl
    have hf' : Text.fields recased = name :: binding :: rest :=
      h.drop hf rfl (n := 0) fun _ _ => CaseFree.not_texture
    exact ⟨_, .attach hc' hf' hb hz hd, rfl⟩
  | @set _ word field rest s hcl hf hs =>
    cases hc.symm.trans hcl
    have hl := h.lower_fields hf
    simp only [List.map_cons, List.map_eq_cons_iff] at hl
    obtain ⟨word', _, hf', hword, field', rest', rfl, hfield, -⟩ := hl
    have hs' : Text.keyword? settings word' = some s := (Text.keyword?_congr hword).trans hs
    refine ⟨_, .set hc' hf' hs', ?_⟩
    by_cases hflag : lower word ∈ flagWords
    · rw [setting_eq_of_flag hs hflag hfield]
    · -- The text of a title or a description is taken as it is.
      have hn : ∀ i, 1 ≤ i → ¬ CaseFree d .setting (word :: field :: rest) i := fun _ =>
        CaseFree.not_of_not_flag rfl hflag
      obtain rfl : field' = field := Option.some.inj (h.field hf hf' (hn 1 (Nat.le_refl 1)))
      rw [h.tail hf hn]
  | @bindSlot _ name slot field modification rest p s m v hcl hf hp hs hm hv =>
    cases hc.symm.trans hcl
    have hl := h.lower_fields hf
    simp only [List.map_cons, List.map_eq_cons_iff] at hl
    obtain ⟨name', _, hf', -, slot', _, rfl, hslot, field', _, rfl, hfield, modification', _, rfl,
      hmodification, -⟩ := hl
    obtain rfl : name' = name := Option.some.inj (h.field hf hf' (i := 0) (by rintro ⟨⟩))
    exact ⟨_, .bindSlot hc' hf' hp ((Text.keyword?_congr hslot).trans hs)
      ((Text.keyword?_congr hmodification).trans hm)
      ((h.read?_value hf hf' .slot rfl hp rfl rfl).trans hv), rfl⟩
  | @bindKey _ name key field modification rest p k m v hcl hf hp hk hm hv =>
    cases hc.symm.trans hcl
    have hl := h.lower_fields hf
    simp only [List.map_cons, List.map_eq_cons_iff] at hl
    obtain ⟨name', _, hf', -, key', _, rfl, -, field', _, rfl, hfield, modification', _, rfl,
      hmodification, -⟩ := hl
    obtain rfl : name' = name := Option.some.inj (h.field hf hf' (i := 0) (by rintro ⟨⟩))
    obtain rfl : key' = key := Option.some.inj (h.field hf hf' (i := 1) (by rintro ⟨⟩))
    exact ⟨_, .bindKey hc' hf' hp hk ((Text.keyword?_congr hmodification).trans hm)
      ((h.read?_value hf hf' .key rfl hp rfl rfl).trans hv), rfl⟩

end Recased

namespace Definition

/-- **Layout and letter case do not matter.** With any number of spaces more where they do not
count, a line is the same directive, with the same result, the same records and the same
definition behind it, also where it is refused. With letters in the other case in fields that may
be written in either case, a line that is accepted is accepted with the same definition. -/
theorem layout_and_letter_case_ignored (d : Definition) {line args : String}
    {directive : Directive} (hc : Directive.classify? line = some (directive, args)) :
    (∀ padded : String, Padded directive args.toList padded.toList →
      Directive.classify? (directive.marker ++ padded) = some (directive, padded) ∧
      d.step (directive.marker ++ padded) = d.step line ∧
      d.advance (directive.marker ++ padded) = d.advance line) ∧
    ∀ recased e, Recased d directive args recased → (d.step line).result = .ok e →
      Directive.classify? (directive.marker ++ recased) = some (directive, recased) ∧
      (d.step (directive.marker ++ recased)).result = .ok e := by
  constructor
  · intro padded h
    exact ⟨h.classify? hc, h.step_eq hc d, h.advance_eq hc d⟩
  · intro recased e h he
    refine ⟨h.classify? hc, ?_⟩
    rcases result_step_eq_ok.1 he with ⟨hnone, -⟩ | ⟨c, hs, rfl⟩
    · cases hc.symm.trans hnone
    · obtain ⟨c', hs', hchange⟩ := h.exists_change hc hs
      exact result_step_eq_ok.2 (.inr ⟨c', hs', by rw [hchange]⟩)

/-- An action on a bool parameter, with spaces and in capital letters. -/
theorem layout_and_letter_case_ignored_action :
    let d := Script.feed (.blank "f") ["#param x,0,bool"]
    d.step "#paramprop  x ,OnAdd,true,set " = d.step "#paramprop x,OnAdd,true,set" ∧
    ∃ e, (d.step "#paramprop x,OnAdd,true,set").result = .ok e ∧
      (d.step "#paramprop x,ONADD,True,SET").result = .ok e := by
  intro d
  have hc : Directive.classify? "#paramprop x,OnAdd,true,set" =
      some (.paramProp, " x,OnAdd,true,set") := by decide +kernel
  have hpadded : Padded .paramProp " x,OnAdd,true,set".toList "  x ,OnAdd,true,set ".toList := by
    have hstart : Padded .paramProp " x,OnAdd,true,set".toList "  x,OnAdd,true,set".toList :=
      @Padded.insert _ _ [] " x,OnAdd,true,set".toList .refl .start
    have hcomma : Padded .paramProp " x,OnAdd,true,set".toList "  x ,OnAdd,true,set".toList :=
      @Padded.insert _ _ "  x".toList ",OnAdd,true,set".toList hstart (.before nofun)
    exact @Padded.insert _ _ "  x ,OnAdd,true,set".toList [] hcomma .stop
  have hrecased : Recased d .paramProp " x,OnAdd,true,set" " x,ONADD,True,SET" := by
    have hpieces : Text.pieces ',' " x,OnAdd,true,set".toList =
        [" x".toList, "OnAdd".toList, "true".toList, "set".toList] := by decide +kernel
    have hpieces' : Text.pieces ',' " x,ONADD,True,SET".toList =
        [" x".toList, "ONADD".toList, "True".toList, "SET".toList] := by decide +kernel
    refine ⟨by decide +kernel, fun i hi => ?_⟩
    rw [hpieces, hpieces']
    match i with
    | 0 => rw [List.getElem?_cons_zero, List.getElem?_cons_zero]
    | 1 => exact absurd .slot hi
    | 2 =>
      have hname : (Text.fields " x,OnAdd,true,set")[0]? = some "x" := by decide +kernel
      have hkind : (d.parameter? "x").map Parameter.kind = some .bool := rfl
      obtain ⟨p, hp, hbool⟩ := Option.map_eq_some_iff.1 hkind
      exact absurd (.value .slot hname hp hbool) hi
    | 3 => exact absurd (.modification .slot) hi
    | i + 4 => simp only [List.getElem?_cons_succ, List.getElem?_nil]
  obtain ⟨e, he⟩ : ∃ e, (d.step "#paramprop x,OnAdd,true,set").result = .ok e := ⟨_, rfl⟩
  obtain ⟨hspaces, hcase⟩ := layout_and_letter_case_ignored d hc
  have hline : Directive.marker .paramProp ++ "  x ,OnAdd,true,set " =
      "#paramprop  x ,OnAdd,true,set " := by decide +kernel
  have hline' : Directive.marker .paramProp ++ " x,ONADD,True,SET" =
      "#paramprop x,ONADD,True,SET" := by decide +kernel
  exact ⟨hline ▸ (hspaces _ hpadded).2.1, e, he, hline' ▸ (hcase _ _ hrecased he).2⟩

end Definition

end ShaderFilter
