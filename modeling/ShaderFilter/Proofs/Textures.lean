import ShaderFilter.Proofs.LastWrite
import ShaderFilter.Proofs.Refusal
import ShaderFilter.Proofs.Text.ByteOrder
import Mathlib.Data.List.Nodup

/-!
# Textures

A texture takes a slot of the shader, its binding. No two textures of a definition have the same
binding, and none has the reserved one (`Apart`): a line that declares a texture is accepted only
if its binding is free, and this is a matter of the number, not of its notation.

Names may be declared again, and then the last texture with a name stands for it
(`Definition.textureBindings`). As the listed textures are among the declared ones, no two names
get one slot.
-/

namespace ShaderFilter

open Number (Word)

/-! ### Bindings -/

/-- Every texture has a binding of its own, and none has the reserved one. -/
structure Apart (ts : List Texture) : Prop where
  /-- No texture has the binding of the source image. -/
  reserved : ∀ t ∈ ts, t.binding ≠ Word.zero
  /-- No two textures share a binding. -/
  distinct : (ts.map (·.binding)).Nodup

namespace Apart

theorem nil : Apart [] := ⟨by simp, List.nodup_nil⟩

/-- One more texture, at a binding that is not reserved and not taken. -/
theorem snoc {ts : List Texture} {t : Texture} (h : Apart ts) (hz : t.binding ≠ Word.zero)
    (hfree : ∀ u ∈ ts, u.binding ≠ t.binding) : Apart (ts ++ [t]) where
  reserved := List.forall_mem_append.2 ⟨h.reserved, List.forall_mem_singleton.2 hz⟩
  distinct := by
    rw [List.map_append, List.nodup_append]
    refine ⟨h.distinct, List.nodup_singleton _, ?_⟩
    rintro b hb c hc
    obtain ⟨u, hu, rfl⟩ := List.mem_map.1 hb
    rw [List.mem_singleton.1 hc]
    exact hfree u hu

/-- Textures with one binding are one texture. -/
theorem eq_of_binding {ts : List Texture} (h : Apart ts) {t u : Texture} (ht : t ∈ ts)
    (hu : u ∈ ts) (hb : t.binding = u.binding) : t = u :=
  List.inj_on_of_nodup_map h.distinct ht hu hb

theorem step {d e : Definition} {line : String} (h : Apart d.textures)
    (hl : (d.step line).result = .ok e) : Apart e.textures := by
  rcases Definition.result_step_eq_ok.1 hl with ⟨-, rfl⟩ | ⟨c, hs, rfl⟩
  · exact h
  · cases hs with
    | attach hc hf hb hz hd => exact h.snoc hz hd
    | set hc hf hs => simpa using h
    | declare hc hf hn hk hr => exact h
    | bindSlot hc hf hp hs hm hv => exact h
    | bindKey hc hf hp hk hm hv => exact h

theorem feed (name : String) (lines : List String) :
    Apart (Script.feed (.blank name) lines).textures :=
  Script.feed_preserves (P := fun d => Apart d.textures) .step .nil lines

end Apart

/-- A line that declares a texture at a binding is accepted if the binding is not reserved and
not taken. -/
theorem Definition.exists_step_texture_iff {d : Definition} {line args name field : String}
    {rest : List String} {b : Word} (hc : Directive.classify? line = some (.texture, args))
    (hf : Text.fields args = name :: field :: rest) (hb : Word.Written field b) :
    (∃ e, (d.step line).result = .ok e) ↔ b ≠ Word.zero ∧ d.Free b := by
  have hread := Word.read?_eq_some.2 hb
  constructor
  · rintro ⟨e, he⟩
    rcases result_step_eq_ok.1 he with ⟨hc', -⟩ | ⟨c, hs, -⟩
    · cases hc.symm.trans hc'
    · obtain ⟨directive, args', hc', hs⟩ := says_iff.1 hs
      cases hc.symm.trans hc'
      obtain ⟨_, _, _, b', hf', hb', hz, hd, -⟩ := readTexture_eq_ok.1 hs
      cases hf.symm.trans hf'
      cases hread.symm.trans hb'
      exact ⟨hz, hd⟩
  · rintro ⟨hz, hd⟩
    exact ⟨_, result_step_eq_ok.2 (.inr ⟨_, .attach hc hf hread hz hd, rfl⟩)⟩

/-! ### The listed textures -/

namespace Definition

theorem mem_enterTexture {t u : Texture} {us : List Texture} (h : u ∈ enterTexture t us) :
    u = t ∨ u ∈ us := by
  induction us with
  | nil => exact .inl (List.mem_singleton.1 h)
  | cons v vs ih => unfold enterTexture at h; grind

theorem enterTexture_ascending {t : Texture} {us : List Texture}
    (h : us.Pairwise fun u v => u.name < v.name) :
    (enterTexture t us).Pairwise fun u v => u.name < v.name := by
  induction us with
  | nil => exact List.pairwise_singleton _ _
  | cons u us ih =>
    obtain ⟨hu, hus⟩ := List.pairwise_cons.1 h
    unfold enterTexture
    split
    · rename_i hlt
      refine h.cons fun v hv => ?_
      rcases List.mem_cons.1 hv with rfl | hv
      · exact hlt
      · exact hlt.trans (hu v hv)
    · rename_i hge
      split
      · rename_i heq
        exact hus.cons fun v hv => heq ▸ hu v hv
      · rename_i hne
        refine (ih hus).cons fun v hv => ?_
        rcases mem_enterTexture hv with rfl | hv
        · exact lt_of_le_of_ne (not_lt.1 hge) (Ne.symm hne)
        · exact hu v hv

/-- Entering a texture changes what stands for its own name only. -/
theorem find?_enterTexture (t : Texture) (us : List Texture) (name : String) :
    (enterTexture t us).find? (·.name == name) =
      if t.name = name then some t else us.find? (·.name == name) := by
  induction us with
  | nil => by_cases h : t.name = name <;> simp [enterTexture, h]
  | cons u us ih => unfold enterTexture; grind

/-- The last texture with a name. -/
def lastTexture? (d : Definition) (name : String) : Option Texture :=
  (d.textures.filter (·.name == name)).getLast?

theorem lastTexture?_addLine (d : Definition) (line name : String) :
    (d.addLine line).lastTexture? name = d.lastTexture? name := rfl

theorem lastTexture?_attach (d : Definition) (t : Texture) (name : String) :
    (d.change (.attach t)).lastTexture? name =
      if t.name = name then some t else d.lastTexture? name := by
  by_cases h : t.name = name <;> simp [lastTexture?, change, List.filter_append, h]

/-- What holds of no textures, and goes on to hold when one more is entered, holds of the listed
textures. -/
theorem textureBindings_induction {P : List Texture → List Texture → Prop} (d : Definition)
    (hnil : P [] []) (hsnoc : ∀ ts us t, P ts us → P (ts ++ [t]) (enterTexture t us)) :
    P d.textures d.textureBindings := by
  unfold textureBindings
  induction d.textures using List.reverseRecOn with
  | nil => exact hnil
  | append_singleton ts t ih =>
    rw [List.foldl_append]
    exact hsnoc ts _ t ih

/-- The listed textures are declared. -/
theorem textureBindings_subset (d : Definition) : d.textureBindings ⊆ d.textures := by
  refine d.textureBindings_induction (P := fun ts us => us ⊆ ts) (List.Subset.refl _) ?_
  intro ts us t h u hu
  rcases mem_enterTexture hu with rfl | hu
  · exact List.mem_append_right _ List.mem_cons_self
  · exact List.mem_append_left _ (h hu)

/-- The listed textures ascend by their names, so no name stands twice. -/
theorem textureBindings_ascending (d : Definition) :
    d.textureBindings.Pairwise fun t u => t.name < u.name :=
  d.textureBindings_induction (P := fun _ us => us.Pairwise fun t u => t.name < u.name) .nil
    fun _ _ _ h => enterTexture_ascending h

/-- The last texture with a name stands for it. -/
theorem find?_textureBindings (d : Definition) (name : String) :
    d.textureBindings.find? (·.name == name) = d.lastTexture? name := by
  refine d.textureBindings_induction
    (P := fun ts us => us.find? (·.name == name) = (ts.filter (·.name == name)).getLast?) rfl ?_
  intro ts us t h
  rw [find?_enterTexture, h]
  by_cases hn : t.name = name <;> simp [List.filter_append, hn]

end Definition

namespace Script

/-! ### The textures of a script -/

/-- The binding, as it is written, of a line that declares a texture with a name. -/
def bindingField? (name line : String) : Option String :=
  match Directive.classify? line with
  | some (.texture, args) =>
    match Text.fields args with
    | n :: field :: _ => if n = name then some field else none
    | _ => none
  | _ => none

theorem bindingField?_of_other {line : String}
    (hc : ∀ args, Directive.classify? line ≠ some (.texture, args)) (name : String) :
    bindingField? name line = none := by
  unfold bindingField?
  split
  · exact absurd ‹_› (hc _)
  · rfl

/-- The last texture with a name is what the last line that declares one says. -/
def TexturesFollow (lines : List String) (d : Definition) : Prop :=
  ∀ name, Option.Rel (fun field t => t.name = name ∧ Word.Written field t.binding)
    (lastOf (bindingField? name) lines) (d.lastTexture? name)

/-- A line that declares no texture leaves them. -/
theorem TexturesFollow.other {lines : List String} {line : String} {d e : Definition}
    (h : TexturesFollow lines d) (hc : ∀ args, Directive.classify? line ≠ some (.texture, args))
    (he : e.textures = d.textures) : TexturesFollow (lines ++ [line]) e := by
  intro name
  rw [lastOf_snoc, bindingField?_of_other hc, Definition.lastTexture?, he]
  exact h name

theorem TexturesFollow.snoc {lines : List String} {line : String} {d e : Definition}
    (h : TexturesFollow lines d) (hl : (d.step line).result = .ok e) :
    TexturesFollow (lines ++ [line]) e := by
  rcases Definition.result_step_eq_ok.1 hl with ⟨hc, rfl⟩ | ⟨c, hs, rfl⟩
  · exact h.other (by simp [hc]) rfl
  · cases hs with
    | @attach args n field rest b hc hf hb hz hd =>
      intro name
      have hline : bindingField? name line = if n = name then some field else none := by
        simp only [bindingField?, hc, hf]
      rw [lastOf_snoc, hline, Definition.lastTexture?_addLine, Definition.lastTexture?_attach]
      dsimp only
      split
      · exact .some ⟨‹_›, Word.read?_eq_some.1 hb⟩
      · exact h name
    | set hc => exact h.other (by simp [hc]) (by simp)
    | declare hc => exact h.other (by simp [hc]) rfl
    | bindSlot hc => exact h.other (by simp [hc]) rfl
    | bindKey hc => exact h.other (by simp [hc]) rfl

theorem texturesFollow_of_reaches {name : String} {lines : List String} {d : Definition}
    (h : Reaches (.blank name) lines d) : TexturesFollow lines d := by
  induction h with
  | nil => exact fun _ => .none
  | snoc _ hl ih => exact ih.snoc hl

/-- **No two textures share a slot.** Whatever lines a loader has been fed, its textures have
different bindings, none of them the reserved one; and a line that declares a texture is accepted
just if its binding, however it is written, is not reserved and not taken. The textures that a
script lists ascend by the bytes of their names, one for each name that is declared, with the
binding that the last line that declares the name says. No two of them have one slot, and none
has the reserved one. -/
theorem texture_slots_never_collide :
    (∀ (name : String) (lines : List String), Apart (feed (.blank name) lines).textures) ∧
    (∀ (d : Definition) (line args name field : String) (rest : List String) (b : Word),
      Directive.classify? line = some (.texture, args) →
      Text.fields args = name :: field :: rest → Word.Written field b →
      ((∃ e, (d.step line).result = .ok e) ↔ b ≠ Word.zero ∧ d.Free b)) ∧
    ∀ (name text : String) (d : Definition), (parse name text).result = .ok d →
      d.textureBindings.Pairwise (fun t u => Text.bytes t.name < Text.bytes u.name) ∧
      (∀ n, (∃ t ∈ d.textureBindings, t.name = n) ↔ ∃ t ∈ d.textures, t.name = n) ∧
      (∀ n, Option.Rel (fun field t => t.name = n ∧ Word.Written field t.binding)
        (lastOf (bindingField? n) (Text.lines text))
        (d.textureBindings.find? (·.name == n))) ∧
      (∀ t ∈ d.textureBindings, t.binding ≠ Word.zero) ∧
      ∀ t ∈ d.textureBindings, ∀ u ∈ d.textureBindings, t.binding = u.binding → t = u := by
  refine ⟨Apart.feed, fun d line args name field rest b hc hf hb =>
    Definition.exists_step_texture_iff hc hf hb, fun name text d h => ?_⟩
  have hr := result_parse_eq_ok.1 h
  have hapart : Apart d.textures := by
    rw [← feed_eq_of_result_run (result_run_eq_ok (n := 1).2 hr)]
    exact Apart.feed name _
  have hsub := d.textureBindings_subset
  refine ⟨?_, fun n => ⟨?_, ?_⟩, fun n => ?_, fun t ht => hapart.reserved t (hsub ht),
    fun t ht u hu => hapart.eq_of_binding (hsub ht) (hsub hu)⟩
  · exact d.textureBindings_ascending.imp Text.bytes_lt_bytes.2
  · rintro ⟨t, ht, rfl⟩
    exact ⟨t, hsub ht, rfl⟩
  · rintro ⟨t, ht, rfl⟩
    have hne : t ∈ d.textures.filter (·.name == t.name) := by simp [ht]
    obtain ⟨u, hu⟩ := Option.isSome_iff_exists.1
      (List.getLast?_isSome.2 (List.ne_nil_of_mem hne))
    rw [← Definition.lastTexture?, ← Definition.find?_textureBindings] at hu
    exact ⟨u, List.mem_of_find?_eq_some hu, by simpa using List.find?_some hu⟩
  · rw [Definition.find?_textureBindings]
    exact texturesFollow_of_reaches hr n

/-- A script that declares one name twice, and numbers in three notations. -/
def textureLines : String := "#texture b,2\n#texture a,+1\n#texture b, 003 "

/-- The later declaration of a name stands for it, but the slot of the earlier one stays taken. -/
theorem texture_slots_never_collide_redeclared :
    ∃ d t, (parse "f" textureLines).result = .ok d ∧
      d.textureBindings.find? (·.name == "b") = some t ∧ Word.Written "003" t.binding ∧
      Word.Written "+02" ⟨2, by decide, by decide⟩ ∧
      ¬ ∃ e, (d.step "#texture c,+02").result = .ok e := by
  have htaken : (parse "f" textureLines).result.toOption.map
      (fun d => decide (d.Free ⟨2, by decide, by decide⟩)) = some false := by decide +kernel
  have hlast : lastOf (bindingField? "b") (Text.lines textureLines) = some "003" := by
    decide +kernel
  have hline : Directive.classify? "#texture c,+02" = some (.texture, " c,+02") := by
    decide +kernel
  have hfields : Text.fields " c,+02" = ["c", "+02"] := by decide +kernel
  have hw : Word.Written "+02" ⟨2, by decide, by decide⟩ :=
    Word.read?_eq_some.1 (by decide +kernel)
  obtain ⟨d, hd, htaken⟩ := Option.map_eq_some_iff.1 htaken
  rw [decide_eq_false_iff_not] at htaken
  have h := toOption_eq_some.1 hd
  have hrel := (texture_slots_never_collide.2.2 _ _ _ h).2.2.1 "b"
  rw [hlast] at hrel
  generalize ht : d.textureBindings.find? (·.name == "b") = t? at hrel
  cases hrel with
  | some hb =>
    refine ⟨d, _, h, ht, hb.2, hw, fun he => htaken ?_⟩
    exact ((texture_slots_never_collide.2.1 _ _ _ _ _ _ _ hline hfields hw).1 he).2

end Script

end ShaderFilter
