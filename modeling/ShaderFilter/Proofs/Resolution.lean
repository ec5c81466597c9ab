import ShaderFilter.Proofs.LastWrite
import ShaderFilter.Proofs.Refusal

/-!
# References

A directive refers to a parameter by its name, and a script may declare a name more than once. A
name means the first parameter that has it (`Definition.Means`).

Two invariants make this meaning stable. The names of the parameters only grow at their end,
whatever lines follow, so a name that means parameter number `i` goes on to mean it
(`Definition.Means.feed`). And of two parameters with one name the later one has no action
(`Definition.Unreferred`): it is declared without any, and no reference ever means it.
-/

namespace ShaderFilter

namespace Definition

/-! ### What a name means -/

/-- A name means parameter number `i`, the first one that has this name. -/
def Means (d : Definition) (name : String) (i : Nat) : Prop :=
  ∃ p, d.parameters[i]? = some p ∧ p.name = name ∧ d.parameter? name = some p ∧
    ∀ j < i, ∀ q, d.parameters[j]? = some q → q.name ≠ name

/-- The names of the parameters, in the order of their declarations. -/
def names (d : Definition) : List String := d.parameters.map (·.name)

theorem findIdx?_names (d : Definition) (name : String) :
    d.names.findIdx? (· == name) = d.parameters.findIdx? (·.name == name) := by
  rw [names, List.findIdx?_map]
  rfl

/-- What a name means is told from the names alone. -/
theorem means_iff {d : Definition} {name : String} {i : Nat} :
    d.Means name i ↔ d.names.findIdx? (· == name) = some i := by
  have hp := d.parameter?_eq_getElem? name
  rw [findIdx?_names]
  constructor
  · rintro ⟨p, hi, hn, -, hfirst⟩
    obtain ⟨hlt, rfl⟩ := List.getElem?_eq_some_iff.1 hi
    refine List.findIdx?_eq_some_iff_getElem.2 ⟨hlt, by simpa using hn, fun j hj => ?_⟩
    simpa using hfirst j hj _ (List.getElem?_eq_getElem (Nat.lt_trans hj hlt))
  · intro h
    obtain ⟨hlt, hn, hfirst⟩ := List.findIdx?_eq_some_iff_getElem.1 h
    rw [h] at hp
    refine ⟨d.parameters[i], List.getElem?_eq_getElem hlt, by simpa using hn,
      hp.trans (List.getElem?_eq_getElem hlt), fun j hj q hq => ?_⟩
    obtain ⟨_, rfl⟩ := List.getElem?_eq_some_iff.1 hq
    simpa using hfirst j hj

/-- A name that has a parameter means one. -/
theorem exists_means {d : Definition} {name : String} {p : Parameter}
    (h : d.parameter? name = some p) : ∃ i, d.Means name i ∧ d.parameters[i]? = some p := by
  have hp := d.parameter?_eq_getElem? name
  rw [h] at hp
  obtain ⟨i, hi, hg⟩ := Option.bind_eq_some_iff.1 hp.symm
  exact ⟨i, means_iff.2 ((d.findIdx?_names name).trans hi), hg⟩

/-! ### Names only grow at their end -/

/-- A change keeps the names, and may add one at their end. -/
theorem names_prefix_change (d : Definition) (c : Change) : d.names <+: (d.change c).names := by
  cases c with
  | declare p => exact ⟨[p.name], by simp [names, change]⟩
  | attach t => exact List.prefix_refl _
  | set s => simp [names]
  | bind b =>
    have h : (d.change (.bind b)).names = d.names := map_updateFirst fun _ => rfl
    exact h ▸ List.prefix_refl _

theorem names_prefix_of_step {d e : Definition} {line : String}
    (h : (d.step line).result = .ok e) : d.names <+: e.names := by
  rcases result_step_eq_ok.1 h with ⟨-, rfl⟩ | ⟨c, -, rfl⟩
  · exact List.prefix_refl _
  · exact names_prefix_change d c

theorem names_prefix_feed (d : Definition) (lines : List String) :
    d.names <+: (Script.feed d lines).names :=
  Script.feed_preserves (P := fun e => d.names <+: e.names)
    (fun hd h => hd.trans (names_prefix_of_step h)) (List.prefix_refl _) lines

/-- No later line makes a name mean another parameter. -/
theorem Means.feed {d : Definition} {name : String} {i : Nat} (h : d.Means name i)
    (lines : List String) : (Script.feed d lines).Means name i :=
  means_iff.2 ((names_prefix_feed d lines).findIdx?_eq_some (means_iff.1 h))

/-! ### Parameters that no reference means -/

/-- Of two parameters with one name the later one has no actions. -/
def Unreferred (ps : List Parameter) : Prop :=
  ps.Pairwise fun p q => p.name = q.name → ∀ t, q.action? t = none

theorem mem_updateFirst {name : String} {f : Parameter → Parameter} {ps : List Parameter}
    {q : Parameter} (h : q ∈ updateFirst name f ps) :
    q ∈ ps ∨ ∃ p ∈ ps, p.name = name ∧ q = f p := by
  induction ps with
  | nil => cases h
  | cons p ps ih =>
    unfold updateFirst at h
    split at h
    · rename_i hn
      rcases List.mem_cons.1 h with rfl | h
      · exact .inr ⟨p, List.mem_cons_self, hn, rfl⟩
      · exact .inl (List.mem_cons_of_mem _ h)
    · rcases List.mem_cons.1 h with rfl | h
      · exact .inl List.mem_cons_self
      · rcases ih h with h | ⟨r, hr, hn, rfl⟩
        · exact .inl (List.mem_cons_of_mem _ h)
        · exact .inr ⟨r, List.mem_cons_of_mem _ hr, hn, rfl⟩

/-- Changing the first parameter with a name gives no action to a later one. -/
theorem Unreferred.updateFirst {name : String} {f : Parameter → Parameter} {ps : List Parameter}
    (h : Unreferred ps) (hf : ∀ p, (f p).name = p.name) :
    Unreferred (updateFirst name f ps) := by
  induction ps with
  | nil => exact .nil
  | cons p ps ih =>
    obtain ⟨hp, hps⟩ := List.pairwise_cons.1 h
    unfold Definition.updateFirst
    split
    · exact hps.cons fun q hq hn => hp q hq ((hf p).symm.trans hn)
    · rename_i hne
      refine (ih hps).cons fun q hq hn => ?_
      rcases mem_updateFirst hq with hq | ⟨r, -, hr, rfl⟩
      · exact hp q hq hn
      · exact absurd ((hn.trans (hf r)).trans hr) hne

theorem Unreferred.step {d e : Definition} {line : String} (h : Unreferred d.parameters)
    (hl : (d.step line).result = .ok e) : Unreferred e.parameters := by
  rcases result_step_eq_ok.1 hl with ⟨-, rfl⟩ | ⟨c, hs, rfl⟩
  · exact h
  · cases hs with
    | declare hc hf hn hk hr =>
      refine List.pairwise_append.2 ⟨h, List.pairwise_singleton _ _, fun p _ q hq _ => ?_⟩
      rw [List.mem_singleton.1 hq]
      exact Parameter.action?_of_readControl hr _ _
    | attach hc hf hb hz hd => exact h
    | set hc hf hs => simpa using h
    | bindSlot hc hf hp hs hm hv => exact h.updateFirst fun _ => rfl
    | bindKey hc hf hp hk hm hv => exact h.updateFirst fun _ => rfl

theorem unreferred_feed (name : String) (lines : List String) :
    Unreferred (Script.feed (.blank name) lines).parameters := by
  have hblank : Unreferred (blank name).parameters := List.Pairwise.nil
  exact Script.feed_preserves (P := fun d => Unreferred d.parameters) .step hblank lines

end Definition

namespace Script

/-! ### References -/

/-- A line is a directive that refers to a parameter by its name. -/
def Refers (line name : String) : Prop :=
  ∃ directive args, Directive.classify? line = some (directive, args) ∧
    (directive = .paramProp ∨ directive = .keybinding) ∧ (Text.fields args).head? = some name

/-- A reference says an action for the parameter that it names. -/
theorem binding_of_refers {d : Definition} {line name : String} {c : Change} (h : Refers line name)
    (hs : d.Says line c) : ∃ b : Binding, c = .bind b ∧ b.parameter = name := by
  obtain ⟨directive, args, hc, hd, hname⟩ := h
  have hother {directive' : Directive} {args' : String}
      (hc' : Directive.classify? line = some (directive', args')) :
      directive' = directive ∧ args' = args := by
    rw [hc] at hc'
    cases hc'
    exact ⟨rfl, rfl⟩
  cases hs with
  | declare hc' => rcases hd with rfl | rfl <;> cases (hother hc').1
  | attach hc' => rcases hd with rfl | rfl <;> cases (hother hc').1
  | set hc' => rcases hd with rfl | rfl <;> cases (hother hc').1
  | bindSlot hc' hf =>
    rw [← (hother hc').2, hf] at hname
    exact ⟨_, rfl, Option.some.inj hname⟩
  | bindKey hc' hf =>
    rw [← (hother hc').2, hf] at hname
    exact ⟨_, rfl, Option.some.inj hname⟩

/-- **A reference means the first parameter with its name, for good.** An accepted line that
refers to a name gives the action that it says to one parameter, and changes nothing else but
the source, which gets a blank line. This parameter is the one that the name means before the
line and after any lines that follow. So a parameter that is not the first one with its name
never gets an action, and no slot and no key changes any value of it. -/
theorem references_resolve_to_first :
    (∀ (d e : Definition) (line name : String), Refers line name →
      (d.step line).result = .ok e →
      ∃ i p t a fields, d.parameters[i]? = some p ∧
        actionFields? name t line = some fields ∧ WrittenAs fields a ∧
        e = { d with parameters := d.parameters.set i (p.bind t a), source := d.source ++ "\n" } ∧
        (p.bind t a).action? t = some a ∧
        ∀ after, (feed d after).Means name i) ∧
    ∀ (name : String) (lines : List String),
      (feed (.blank name) lines).parameters.Pairwise fun p q => p.name = q.name →
        q.slotActions = [] ∧ q.keyActions = [] ∧ ∀ t v, q.fire? t v = none := by
  constructor
  · intro d e line name hrefers hstep
    rcases Definition.result_step_eq_ok.1 hstep with ⟨hc, -⟩ | ⟨c, hs, rfl⟩
    · obtain ⟨_, _, hc', -⟩ := hrefers
      cases hc.symm.trans hc'
    · obtain ⟨b, rfl, rfl⟩ := binding_of_refers hrefers hs
      obtain ⟨p, fields, hp, hk, hw, hline⟩ := actionFields?_of_says hs
      obtain ⟨i, hi, hg⟩ := Definition.exists_means hp
      have hidx := (d.findIdx?_names b.parameter).symm.trans (Definition.means_iff.1 hi)
      refine ⟨i, p, b.trigger, b.action, fields, hg, by simp [hline], hw, ?_, ?_, hi.feed⟩
      · simp [Definition.change, Definition.addLine, updateFirst_eq_set hidx hg]
      · rw [Parameter.action?_bind hk, if_pos rfl]
  · intro name lines
    refine (Definition.unreferred_feed name lines).imp fun {p q} h hn => ?_
    have hq := h hn
    exact ⟨(Parameter.shown_eq_nil hq).1, (Parameter.shown_eq_nil hq).2,
      fun t v => Parameter.fire?_eq_none (hq t) v⟩

/-- A name that is declared three times, the third time after the reference. -/
theorem references_resolve_to_first_redeclared :
    ∃ e i, ((feed (.blank "f") ["#param x,0,int", "#param x,1,float"]).step
        "#paramprop x,OnAdd,3,set").result = .ok e ∧
      Refers "#paramprop x,OnAdd,3,set" "x" ∧
      (feed (feed (.blank "f") ["#param x,0,int", "#param x,1,float"])
        ["#paramprop x,OnAdd,3,set", "#param x,2,bool"]).Means "x" i ∧
      ∃ p, e.parameters[1]? = some p ∧ p.slotActions = [] := by
  have h : ((feed (.blank "f") ["#param x,0,int", "#param x,1,float"]).step
      "#paramprop x,OnAdd,3,set").result = .ok _ := rfl
  have hrefers : Refers "#paramprop x,OnAdd,3,set" "x" :=
    ⟨.paramProp, _, rfl, .inl rfl, rfl⟩
  obtain ⟨i, _, _, _, _, -, -, -, -, -, hmeans⟩ :=
    references_resolve_to_first.1 _ _ _ _ hrefers h
  exact ⟨_, i, h, hrefers, hmeans _, _, rfl, rfl⟩

end Script

end ShaderFilter
