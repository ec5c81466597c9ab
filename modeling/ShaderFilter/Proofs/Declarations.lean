import ShaderFilter.Proofs.FloatBounds
import ShaderFilter.Proofs.Literal
import ShaderFilter.Proofs.Prefixes
import Mathlib.Data.List.Forall2

/-!
# Declarations

Every line with the marker of parameters declares one parameter, and every line with the marker
of textures one texture. `DeclaredBy` and `AttachedBy` say what the fields of such a line make of
it. Default and bounds are given one by one: each of them is what its own field says, or what the
kind has where the field is missing (`Stated`); no field is compared with another one.

The declarations of a script are recorded in the order of their lines, one for each line, and no
later line changes one: the invariant is `DeclarationsFollow`, which every kind of line preserves.
-/

namespace ShaderFilter

open Number (Single Word)

/-! ### What a kind has where a field is missing -/

theorem Number.rankLimit_pos : 0 < Number.rankLimit := by decide

theorem Number.least_le_zero : (-2147483648 : Int) ≤ 0 := by decide

theorem Number.zero_le_greatest : (0 : Int) ≤ 2147483647 := by decide

namespace Kind

/-- The default where none is given: the positive zero, zero, or false. -/
def zero : Kind → Value
  | .float => .float (.finite false ⟨0, Number.rankLimit_pos⟩)
  | .int => .int ⟨0, Number.least_le_zero, Number.zero_le_greatest⟩
  | .bool => .bool false

/-- The lower bound where none is given. -/
def least : Kind → Value
  | .float => .float Single.least
  | .int => .int Word.least
  | .bool => .bool false

/-- The upper bound where none is given. -/
def greatest : Kind → Value
  | .float => .float Single.greatest
  | .int => .int Word.greatest
  | .bool => .bool true

end Kind

/-- Every finite single is between the least and the greatest one. -/
theorem Number.Single.between_extremes {x : Single} (h : x.IsFinite) :
    Single.least ≤ x ∧ x ≤ Single.greatest := by
  obtain ⟨s, r, rfl⟩ := h
  have hr := r.isLt
  unfold rankLimit at hr
  constructor <;> refine Single.le_iff_place.2 ⟨_, _, rfl, rfl, ?_⟩ <;>
    cases s <;> simp [signed, rankLimit] <;> omega

/-- The bounds of a kind where none are given are values of the kind, and not infinite, -/
theorem Kind.floatIsFinite_extremes (k : Kind) :
    (k.least.kind = k ∧ k.least.FloatIsFinite) ∧ k.greatest.kind = k ∧ k.greatest.FloatIsFinite := by
  cases k with
  | float =>
    exact ⟨⟨rfl, fun _ h => ⟨_, _, (Value.float.inj h).symm⟩⟩, rfl,
      fun _ h => ⟨_, _, (Value.float.inj h).symm⟩⟩
  | int | bool => exact ⟨⟨rfl, nofun⟩, rfl, nofun⟩

/-- and all other values of the kind that are not infinite lie between them. -/
theorem Value.between_extremes {v : Value} (h : v.FloatIsFinite) :
    v.kind.least ≤ v ∧ v ≤ v.kind.greatest := by
  cases v with
  | float x =>
    obtain ⟨hl, hg⟩ := Single.between_extremes (h x rfl)
    exact ⟨.float hl, .float hg⟩
  | int n => exact ⟨.int n.least_le, .int n.le_greatest⟩
  | bool b => exact ⟨.bool (Bool.false_le b), .bool (Bool.le_true b)⟩

/-! ### What a line declares -/

/-- A value is what its field says in a kind, or another one where the field is missing. -/
inductive Stated (k : Kind) (missing : Value) : Option String → Value → Prop where
  /-- The field is there. -/
  | written {field : String} {v : Value} : Value.read? k field = some v →
      Stated k missing (some field) v
  /-- The field is missing. -/
  | absent : Stated k missing none missing

theorem stated_some_iff {k : Kind} {missing v : Value} {field : String} :
    Stated k missing (some field) v ↔ Value.read? k field = some v :=
  ⟨fun | .written h => h, .written⟩

theorem stated_none_iff {k : Kind} {missing v : Value} : Stated k missing none v ↔ v = missing :=
  ⟨fun | .absent => rfl, fun h => h ▸ .absent⟩

/-- These fields declare a parameter. -/
structure DeclaredBy (fields : List String) (p : Declaration) : Prop where
  /-- The first field is the name. -/
  name : fields[0]? = some p.name
  /-- The second field is the location. -/
  location : ∃ field, fields[1]? = some field ∧ Word.Written field p.location
  /-- The third field names the kind, in any case of letters. -/
  kind : ∃ word, fields[2]? = some word ∧ Text.lower word = p.kind.name
  /-- The fourth field is the default, whatever the bounds are. -/
  default : Stated p.kind p.kind.zero fields[3]? p.default
  /-- The next two are the bounds of a number. -/
  bounds : p.kind ≠ .bool → Stated p.kind p.kind.least fields[4]? p.min ∧
    Stated p.kind p.kind.greatest fields[5]? p.max
  /-- The bounds of a truth value are fixed. -/
  switch : p.kind = .bool → p.min = .bool false ∧ p.max = .bool true

/-- These fields declare a texture. -/
structure AttachedBy (fields : List String) (t : Texture) : Prop where
  /-- The first field is the name. -/
  name : fields[0]? = some t.name
  /-- The second field is the binding. -/
  binding : ∃ field, fields[1]? = some field ∧ Word.Written field t.binding

section

variable {α : Type} [Scalar α] (hread : ∀ field,
  Value.read? (Scalar.kind α) field = (Scalar.read? (α := α) field).map Scalar.toValue)

include hread

theorem stated_of_readOr {missing a : α} {field? : Option String}
    (h : readOr missing field? = .ok a) :
    Stated (Scalar.kind α) (Scalar.toValue missing) field? (Scalar.toValue a) := by
  cases field? with
  | none =>
    cases h
    exact .absent
  | some field => exact stated_some_iff.2 (by rw [hread, orError_eq_ok.1 h, Option.map_some])

theorem stated_of_readBounds {fields : List String} {c : Control α}
    (h : readBounds fields = .ok c) :
    Stated (Scalar.kind α) (Scalar.toValue (Scalar.zero : α)) fields[0]?
        (Scalar.toValue c.default) ∧
      Stated (Scalar.kind α) (Scalar.toValue (Scalar.least : α)) fields[1]?
        (Scalar.toValue c.min) ∧
      Stated (Scalar.kind α) (Scalar.toValue (Scalar.greatest : α)) fields[2]?
        (Scalar.toValue c.max) := by
  simp only [readBounds, bind_eq_ok] at h
  obtain ⟨default, hdefault, min, hmin, max, hmax, h⟩ := h
  cases h
  exact ⟨stated_of_readOr hread hdefault, stated_of_readOr hread hmin,
    stated_of_readOr hread hmax⟩

end

/-- A declaration that can be read is what its fields declare. -/
theorem declaredBy_of_readControl {name location word : String} {rest : List String} {n : Word}
    {k : Kind} {c : AnyControl} (hn : Word.read? location = some n) (hk : Kind.read? word = some k)
    (hc : readControl k rest = .ok c) :
    DeclaredBy (name :: location :: word :: rest) (Parameter.mk name n c).declaration := by
  have hlocation := Word.read?_eq_some.1 hn
  have hword := Kind.read?_eq_some.1 hk
  cases k with
  | float =>
    obtain ⟨_, hbounds, rfl⟩ := map_eq_ok.1 hc
    obtain ⟨hdefault, hmin, hmax⟩ := stated_of_readBounds (fun _ => rfl) hbounds
    exact ⟨rfl, ⟨_, rfl, hlocation⟩, ⟨_, rfl, hword⟩, hdefault, fun _ => ⟨hmin, hmax⟩, nofun⟩
  | int =>
    obtain ⟨_, hbounds, rfl⟩ := map_eq_ok.1 hc
    obtain ⟨hdefault, hmin, hmax⟩ := stated_of_readBounds (fun _ => rfl) hbounds
    exact ⟨rfl, ⟨_, rfl, hlocation⟩, ⟨_, rfl, hword⟩, hdefault, fun _ => ⟨hmin, hmax⟩, nofun⟩
  | bool =>
    obtain ⟨_, hswitch, rfl⟩ := map_eq_ok.1 hc
    obtain ⟨default, hdefault, hswitch⟩ := bind_eq_ok.1 hswitch
    cases hswitch
    have hstated := stated_of_readOr (fun _ => rfl) hdefault
    exact ⟨rfl, ⟨_, rfl, hlocation⟩, ⟨_, rfl, hword⟩, hstated, fun h => absurd rfl h,
      fun _ => ⟨rfl, rfl⟩⟩

namespace Script

/-! ### The declarations of a script -/

/-- The fields of a line with a directive; none if the line is another one. -/
def fieldsOf? (directive : Directive) (line : String) : Option (List String) :=
  match Directive.classify? line with
  | some (d, args) => if d = directive then some (Text.fields args) else none
  | none => none

theorem fieldsOf?_of_none {line : String} (hc : Directive.classify? line = none)
    (directive : Directive) : fieldsOf? directive line = none := by
  rw [fieldsOf?, hc]

theorem fieldsOf?_of_some {line args : String} {d : Directive}
    (hc : Directive.classify? line = some (d, args)) (directive : Directive) :
    fieldsOf? directive line = if d = directive then some (Text.fields args) else none := by
  rw [fieldsOf?, hc]

/-- The declarations are those of the lines, in their order. -/
structure DeclarationsFollow (lines : List String) (d : Definition) : Prop where
  /-- One parameter for each line that declares one. -/
  parameters : List.Forall₂ DeclaredBy (lines.filterMap (fieldsOf? .param)) d.declarations
  /-- One texture for each line that declares one. -/
  textures : List.Forall₂ AttachedBy (lines.filterMap (fieldsOf? .texture)) d.textures

/-- A line adds to the declarations what it declares, and changes none of those before it. -/
theorem DeclarationsFollow.add {lines : List String} {line : String} {d e : Definition}
    (h : DeclarationsFollow lines d) (ps : List Declaration) (ts : List Texture)
    (hps : List.Forall₂ DeclaredBy (fieldsOf? .param line).toList ps)
    (hts : List.Forall₂ AttachedBy (fieldsOf? .texture line).toList ts)
    (hparameters : e.declarations = d.declarations ++ ps)
    (htextures : e.textures = d.textures ++ ts) :
    DeclarationsFollow (lines ++ [line]) e := by
  have hline (directive : Directive) : [line].filterMap (fieldsOf? directive) =
      (fieldsOf? directive line).toList := by
    cases h : fieldsOf? directive line <;> simp [h]
  constructor
  · rw [List.filterMap_append, hline, hparameters]
    exact List.rel_append h.parameters hps
  · rw [List.filterMap_append, hline, htextures]
    exact List.rel_append h.textures hts

theorem DeclarationsFollow.snoc {lines : List String} {line : String} {d e : Definition}
    (h : DeclarationsFollow lines d) (hl : (d.step line).result = .ok e) :
    DeclarationsFollow (lines ++ [line]) e := by
  rcases Definition.result_step_eq_ok.1 hl with ⟨hc, rfl⟩ | ⟨c, hs, rfl⟩
  · have hnone := fieldsOf?_of_none hc
    exact h.add [] [] (by simp [hnone]) (by simp [hnone])
      (by simp [Definition.declarations]) (by simp)
  · cases hs with
    | @declare args name location word rest n k c hc hf hn hk hr =>
      have hfields := fieldsOf?_of_some hc
      have hdeclared : DeclaredBy (Text.fields args) (Parameter.mk name n c).declaration :=
        hf ▸ declaredBy_of_readControl hn hk hr
      exact h.add [(Parameter.mk name n c).declaration] []
        (by simp [hfields, hdeclared]) (by simp [hfields])
        (by simp [Definition.declarations, Definition.change]) (by simp [Definition.change])
    | @attach args name field rest b hc hf hb hz hfree =>
      have hfields := fieldsOf?_of_some hc
      have hattached : AttachedBy (Text.fields args) ⟨name, b⟩ :=
        ⟨by rw [hf]; rfl, field, by rw [hf]; rfl, Word.read?_eq_some.1 hb⟩
      exact h.add [] [⟨name, b⟩] (by simp [hfields]) (by simp [hfields, hattached])
        (by simp [Definition.declarations, Definition.change]) (by simp [Definition.change])
    | set hc hf hs =>
      have hfields := fieldsOf?_of_some hc
      exact h.add [] [] (by simp [hfields]) (by simp [hfields])
        (by simp [Definition.declarations]) (by simp)
    | bindSlot hc hf hp hs hm hv =>
      have hfields := fieldsOf?_of_some hc
      exact h.add [] [] (by simp [hfields]) (by simp [hfields])
        (by rw [List.append_nil]; exact d.declarations_bind _) (by simp [Definition.change])
    | bindKey hc hf hp hk hm hv =>
      have hfields := fieldsOf?_of_some hc
      exact h.add [] [] (by simp [hfields]) (by simp [hfields])
        (by rw [List.append_nil]; exact d.declarations_bind _) (by simp [Definition.change])

theorem declarationsFollow_of_reaches {name : String} {lines : List String} {d : Definition}
    (h : Reaches (.blank name) lines d) : DeclarationsFollow lines d := by
  induction h with
  | nil => exact ⟨.nil, .nil⟩
  | snoc _ hl ih => exact ih.snoc hl

/-- **Declarations are recorded one for one, and never altered.** A script that parses has a
parameter for each line that declares one, in the order of the lines and as the line says, with
the default as it is written; a default that is missing is zero, and bounds that are missing are the
least and the greatest finite value of the kind. It has a texture for each line that declares one,
likewise. What has been declared before any line is still there, at the start, in the end. -/
theorem declarations_recorded {name text : String} {d : Definition}
    (h : (parse name text).result = .ok d) :
    List.Forall₂ DeclaredBy ((Text.lines text).filterMap (fieldsOf? .param))
      (d.parameters.map Parameter.declaration) ∧
    List.Forall₂ AttachedBy ((Text.lines text).filterMap (fieldsOf? .texture)) d.textures ∧
    (∀ before after, Text.lines text = before ++ after →
      ∃ e, (parseLines name before).result = .ok e ∧
        e.parameters.map Parameter.declaration <+: d.parameters.map Parameter.declaration ∧
        e.textures <+: d.textures) ∧
    (∀ k : Kind, (k.least.kind = k ∧ k.least.FloatIsFinite) ∧
      k.greatest.kind = k ∧ k.greatest.FloatIsFinite) ∧
    ∀ v : Value, v.FloatIsFinite → v.kind.least ≤ v ∧ v ≤ v.kind.greatest := by
  have hreach := result_parse_eq_ok.1 h
  obtain ⟨hparameters, htextures⟩ := declarationsFollow_of_reaches hreach
  refine ⟨hparameters, htextures, fun before after hlines => ?_, Kind.floatIsFinite_extremes,
    fun v => Value.between_extremes⟩
  obtain ⟨e, hbefore, hafter⟩ := reaches_append.1 (hlines ▸ hreach)
  have hstart := Definition.StartOf.reaches hafter
  exact ⟨e, (result_parseLines name before).trans (result_run_eq_ok.2 hbefore),
    hstart.declarations, hstart.textures⟩

/-- A script that declares a name twice, the first time with a default above both bounds, and
gives it an action in between. -/
def declaredTwice : String :=
  "#param a,+1,INT,9,5,3\n#texture t,007\n#paramprop a,OnAdd,4,set\n#param a,0,float"

/-- The default stays above the bounds, and the second declaration has the bounds of its kind. -/
theorem declarations_recorded_twice :
    ∃ d p q t, (parse "f" declaredTwice).result = .ok d ∧
      d.parameters.map Parameter.declaration = [p, q] ∧ d.textures = [t] ∧
      DeclaredBy ["a", "+1", "INT", "9", "5", "3"] p ∧ DeclaredBy ["a", "0", "float"] q ∧
      AttachedBy ["t", "007"] t ∧ Value.read? p.kind "9" = some p.default ∧
      q.default = .float (.finite false ⟨0, by decide⟩) ∧ q.max = q.kind.greatest ∧ q.max.FloatIsFinite ∧
      Single.least ≤ .zero := by
  have hok : (parse "f" declaredTwice).result.toOption.isSome := by decide +kernel
  have hparams : (Text.lines declaredTwice).filterMap (fieldsOf? .param) =
      [["a", "+1", "INT", "9", "5", "3"], ["a", "0", "float"]] := by decide +kernel
  have htextures : (Text.lines declaredTwice).filterMap (fieldsOf? .texture) =
      [["t", "007"]] := by decide +kernel
  have hfloat : Text.lower "float" = "float" := by decide
  obtain ⟨d, hd⟩ := Option.isSome_iff_exists.1 hok
  have h := toOption_eq_some.1 hd
  obtain ⟨hps, hts, -, hfinite, hextremes⟩ := declarations_recorded h
  rw [hparams] at hps
  rw [htextures] at hts
  have hzero : Value.float Single.least ≤ .float .zero :=
    (hextremes (.float .zero) fun x hx => ⟨_, _, (Value.float.inj hx).symm⟩).1
  generalize hpq : d.parameters.map Parameter.declaration = ps at hps
  generalize ht : d.textures = ts at hts
  obtain ⟨p, _, hp, hrest, rfl⟩ := List.forall₂_cons_left_iff.1 hps
  obtain ⟨q, _, hq, hnil, rfl⟩ := List.forall₂_cons_left_iff.1 hrest
  obtain ⟨t, _, ht', hnil', rfl⟩ := List.forall₂_cons_left_iff.1 hts
  cases hnil
  cases hnil'
  have hkind : q.kind = .float := by
    obtain ⟨_, hword, hname⟩ := hq.kind
    cases hword
    rw [hfloat] at hname
    revert hname
    cases q.kind <;> decide
  have hnumber : q.kind ≠ .bool := by
    rw [hkind]
    decide
  have hmax := stated_none_iff.1 (hq.bounds hnumber).2
  have hdefault := stated_none_iff.1 hq.default
  rw [hkind] at hdefault
  exact ⟨d, p, q, t, h, hpq, ht, hp, hq, ht', stated_some_iff.1 hp.default,
    hdefault, hmax, hmax ▸ (hfinite q.kind).2.2, Value.float_le_float.1 hzero⟩

end Script

end ShaderFilter
