import ShaderFilter.Proofs.Grammar
import ShaderFilter.Proofs.KeyWords
import ShaderFilter.Proofs.Resolution
import Mathlib.Data.Finset.Card

/-!
# The log as a trace

What the loader notes while it reads a script can be told from the text. `NotedLine` says which
records a line has, in view of the lines before it; `Trace` puts the records of lines after each
other, and lines have one trace at most (`Trace.unique`). The log of a script is the trace of the
lines that are taken in, and the record of the finished definition if there is one.

The loader does not note a directive when it has obeyed it, but in the middle of it: the warning
about a name that is declared again comes before default and bounds are read. So a line that is
refused may leave a warning behind. `Belated` says which lines these are.

That the warnings can be counted is an invariant of the run: there is one for each parameter
whose name is not new, so warnings and different names together are as many as the parameters.
-/

namespace ShaderFilter

open Log (Record)
open Number (Word)

/-! ### The records of a computation -/

namespace Logged

variable {ε α β : Type} {x : Logged ε α}

theorem records_bind_of_ok {a : α} (h : x.result = .ok a) (f : α → Logged ε β) :
    (x >>= f).records = x.records ++ (f a).records := by
  simp [bind, andThen, h]

theorem records_bind_of_error {e : ε} (h : x.result = .error e) (f : α → Logged ε β) :
    (x >>= f).records = x.records := by
  simp [bind, andThen, h]

/-- The result of a computation alone adds no record. -/
theorem records_bind_pure (x : Logged ε α) : (x >>= pure).records = x.records := by
  cases h : x.result with
  | ok a => rw [records_bind_of_ok h, records_pure, List.append_nil]
  | error e => exact records_bind_of_error h pure

end Logged

namespace Definition

variable {d : Definition} {line args : String} {directive : Directive}

/-- A line of the source is not noted. -/
theorem records_step_source (hc : Directive.classify? line = none) :
    (d.step line).records = [] := by
  unfold step
  rw [Loader.run_takeLine, hc]

/-- A directive that can be read is noted after its warnings. -/
theorem records_step_of_read {c : Change} (hc : Directive.classify? line = some (directive, args))
    (hr : d.read directive args = .ok c) :
    (d.step line).records = d.warnings directive args ++ c.records := by
  unfold step
  simp [Loader.run_takeLine, hc, hr]

/-- A directive that cannot be read leaves its warnings. -/
theorem records_step_of_error {e : DirectiveError}
    (hc : Directive.classify? line = some (directive, args))
    (hr : d.read directive args = .error e) :
    (d.step line).records = d.warnings directive args := by
  unfold step
  simp [Loader.run_takeLine, hc, hr]

/-- The warning depends on location and kind, but not on what comes behind them. -/
theorem warnings_param {name location word : String} {rest : List String} {n : Word} {k : Kind}
    (hf : Text.fields args = name :: location :: word :: rest)
    (hn : Word.read? location = some n) (hk : Kind.read? word = some k) :
    d.warnings .param args = d.takenWarning name := by
  rw [warnings, hf]
  simp [declarationWarnings, hn, hk]

end Definition

namespace Script

/-! ### What is noted of a line -/

/-- The warning about a name that is declared again. -/
def warning (name : String) : Record :=
  ⟨.warn, .loader, s!"parameter '{name}' declared more than once; " ++
    "references resolve to the first declaration"⟩

/-- The warning about a name, if one of the earlier lines declares it. -/
def warningAfter (before : List String) (name : String) : List Record :=
  if before.any (declares name) then [warning name] else []

/-- The records of a directive with these fields, after the lines before it. -/
inductive Noted (before : List String) : Directive → List String → List Record → Prop where
  /-- A parameter is noted, after a warning if its name is not new. -/
  | param {name location word : String} {rest : List String} {n : Word} {k : Kind} :
      Word.Written location n → Text.lower word = k.name →
      Noted before .param (name :: location :: word :: rest)
        (warningAfter before name ++
          [⟨.debug, .loader, s!"#param {name} ({k.name}) at location {n.text}"⟩])
  /-- A texture is noted. -/
  | texture {name field : String} {rest : List String} {b : Word} : Word.Written field b →
      Noted before .texture (name :: field :: rest)
        [⟨.debug, .loader, s!"#texture {name} at binding {b.text}"⟩]
  /-- A setting is not noted. -/
  | setting {fields : List String} : Noted before .setting fields []
  /-- An action on a slot is noted. -/
  | paramProp {name slot field modification : String} {rest : List String} {s : Slot}
      {m : Modification} :
      Text.lower slot = Text.lower s.name → Text.lower modification = m.name →
      Noted before .paramProp (name :: slot :: field :: modification :: rest)
        [⟨.debug, .loader, s!"#paramprop {name} {s.name} {field} {m.title}"⟩]
  /-- An action on a key is noted, with the name of the key. -/
  | keybinding {name word field modification : String} {rest : List String} {key : Key}
      {m : Modification} :
      Key.Written word key → Text.lower modification = m.name →
      Noted before .keybinding (name :: word :: field :: modification :: rest)
        [⟨.debug, .loader, s!"#keybinding {name} {key.name} {field} {m.title}"⟩]

/-- The records of a line, after the lines before it. -/
inductive NotedLine (before : List String) (line : String) : List Record → Prop where
  /-- A line of the source is not noted. -/
  | source : Directive.classify? line = none → NotedLine before line []
  /-- A directive is noted as its fields say. -/
  | directive {args : String} {directive : Directive} {records : List Record} :
      Directive.classify? line = some (directive, args) →
      Noted before directive (Text.fields args) records → NotedLine before line records

/-- The records of lines, one line after the other. -/
inductive Trace : List String → List Record → Prop where
  /-- No line, no record. -/
  | nil : Trace [] []
  /-- One more line has its records behind those of the lines before it. -/
  | snoc {lines : List String} {line : String} {notes records : List Record} :
      Trace lines notes → NotedLine lines line records → Trace (lines ++ [line]) (notes ++ records)

/-- A line declares a name that an earlier line has declared, and is refused for what it says
behind the kind. -/
def Belated (before : List String) (line name : String) : Prop :=
  ∃ args location word rest n k, Directive.classify? line = some (.param, args) ∧
    Text.fields args = name :: location :: word :: rest ∧ Word.Written location n ∧
    Text.lower word = k.name ∧ ¬ Kind.Bounds k rest ∧ ∃ l ∈ before, declares name l

/-! ### Lines have one trace -/

theorem Noted.unique {before fields : List String} {directive : Directive}
    {records records' : List Record} (h : Noted before directive fields records)
    (h' : Noted before directive fields records') : records = records' := by
  cases h with
  | param hn hk =>
    cases h' with
    | param hn' hk' =>
      rw [← Word.read?_eq_some] at hn hn'
      rw [← Kind.read?_eq_some] at hk hk'
      cases hn.symm.trans hn'
      cases hk.symm.trans hk'
      rfl
  | texture hb =>
    cases h' with
    | texture hb' =>
      rw [← Word.read?_eq_some] at hb hb'
      cases hb.symm.trans hb'
      rfl
  | setting =>
    cases h'
    rfl
  | paramProp hs hm =>
    cases h' with
    | paramProp hs' hm' =>
      rw [← Slot.read?_eq_some] at hs hs'
      rw [← Modification.read?_eq_some] at hm hm'
      cases hs.symm.trans hs'
      cases hm.symm.trans hm'
      rfl
  | keybinding hk hm =>
    cases h' with
    | keybinding hk' hm' =>
      rw [← Modification.read?_eq_some] at hm hm'
      cases hk.unique hk'
      cases hm.symm.trans hm'
      rfl

theorem NotedLine.unique {before : List String} {line : String} {records records' : List Record}
    (h : NotedLine before line records) (h' : NotedLine before line records') :
    records = records' := by
  cases h with
  | source hc =>
    cases h' with
    | source => rfl
    | directive hc' => cases hc.symm.trans hc'
  | directive hc hn =>
    cases h' with
    | source hc' => cases hc.symm.trans hc'
    | directive hc' hn' =>
      cases hc.symm.trans hc'
      exact hn.unique hn'

theorem Trace.unique {lines : List String} {notes notes' : List Record} (h : Trace lines notes)
    (h' : Trace lines notes') : notes = notes' := by
  induction h generalizing notes' with
  | nil =>
    generalize hl : ([] : List String) = lines at h'
    cases h' with
    | nil => rfl
    | snoc => simp at hl
  | @snoc lines line _ _ _ hn ih =>
    generalize hl : lines ++ [line] = lines' at h'
    cases h' with
    | nil => simp at hl
    | snoc h' hn' =>
      obtain ⟨rfl, hline⟩ := List.append_inj' hl rfl
      cases hline
      rw [ih h', hn.unique hn']

theorem Trace.iff_eq {lines : List String} {notes : List Record} (h : Trace lines notes)
    (records : List Record) : Trace lines records ↔ records = notes := by
  constructor
  · intro h'
    exact h'.unique h
  · rintro rfl
    exact h

/-! ### The loader notes the trace -/

/-- A name has a parameter if one of the lines declares it. -/
theorem Follows.takenWarning {lines : List String} {d : Definition} (h : Follows lines d)
    (name : String) : d.takenWarning name = warningAfter lines name := by
  have hr := h.kinds name
  have hany : lines.any (declares name) = (d.parameter? name).isSome := by
    rw [← List.isSome_find?, ← Option.isSome_map (f := Parameter.kind)]
    generalize lines.find? (declares name) = line? at hr
    generalize (d.parameter? name).map Parameter.kind = k? at hr
    cases hr <;> rfl
  rw [Definition.takenWarning, warningAfter, hany]
  rfl

/-- A line that is taken in is noted. -/
theorem Follows.noted {lines : List String} {line : String} {d e : Definition}
    (h : Follows lines d) (hl : (d.step line).result = .ok e) :
    NotedLine lines line (d.step line).records := by
  rcases Definition.result_step_eq_ok.1 hl with ⟨hc, -⟩ | ⟨c, hs, -⟩
  · rw [Definition.records_step_source hc]
    exact .source hc
  · obtain ⟨directive, args, hclass, hr⟩ := Definition.says_iff.1 hs
    rw [Definition.records_step_of_read hclass hr]
    refine .directive hclass ?_
    cases hs with
    | @declare _ name location word rest n k control hc hf hn hk hcontrol =>
      cases hclass.symm.trans hc
      rw [Definition.warnings_param hf hn hk, h.takenWarning, hf, Change.records,
        kind_of_readControl hcontrol]
      exact .param (Word.read?_eq_some.1 hn) (Kind.read?_eq_some.1 hk)
    | attach hc hf hb hz hd =>
      cases hclass.symm.trans hc
      rw [hf]
      exact .texture (Word.read?_eq_some.1 hb)
    | set hc hf hs =>
      cases hclass.symm.trans hc
      exact .setting
    | bindSlot hc hf hp hs hm hv =>
      cases hclass.symm.trans hc
      rw [hf]
      exact .paramProp (Slot.read?_eq_some.1 hs) (Modification.read?_eq_some.1 hm)
    | bindKey hc hf hp hk hm hv =>
      cases hclass.symm.trans hc
      rw [hf]
      exact .keybinding (Key.read?_eq_some.1 hk) (Modification.read?_eq_some.1 hm)

/-- Lines that are taken in are noted before the lines that come after them. -/
theorem records_run_append {d e : Definition} {n : Nat} {before after : List String}
    (h : (run d n before).result = .ok e) :
    (run d n (before ++ after)).records =
      (run d n before).records ++ (run e (n + before.length) after).records := by
  induction before generalizing d n with
  | nil =>
    cases h
    rfl
  | cons line before ih =>
    obtain ⟨f, hf, hrun⟩ := result_run_cons_eq_ok.1 h
    have hstep : ((d.step line).mapError (LineError.mk n)).result = .ok f :=
      mapError_eq_ok.2 hf
    rw [List.cons_append, run, run, Logged.records_bind_of_ok hstep,
      Logged.records_bind_of_ok hstep, ih hrun, List.append_assoc, List.length_cons,
      Nat.add_right_comm, Nat.add_assoc]

/-- One more line at the end of a run adds what is noted of it. -/
theorem records_run_snoc {d e : Definition} {n : Nat} {lines : List String}
    (h : Reaches d lines e) (line : String) :
    (run d n (lines ++ [line])).records = (run d n lines).records ++ (e.step line).records := by
  have hlast : (run e (n + lines.length) [line]).records = (e.step line).records :=
    Logged.records_bind_pure ((e.step line).mapError (LineError.mk (n + lines.length)))
  rw [records_run_append (result_run_eq_ok.2 h), hlast]

/-- A line that is refused is the last one that is noted. -/
theorem records_run_cons_of_error {d : Definition} {n : Nat} {line : String} {lines : List String}
    {e : DirectiveError} (h : (d.step line).result = .error e) :
    (run d n (line :: lines)).records = (d.step line).records := by
  have hstep : ((d.step line).mapError (LineError.mk n)).result = .error ⟨n, e⟩ := by
    simp [Logged.mapError, h, Except.mapError]
  exact Logged.records_bind_of_error hstep _

/-- **What a run notes is the trace of its lines**, line by line. -/
theorem trace_of_reaches {name : String} {lines : List String} {d : Definition}
    (h : Reaches (.blank name) lines d) : Trace lines (run (.blank name) 1 lines).records := by
  induction h with
  | nil => exact .nil
  | snoc h hl ih =>
    rw [records_run_snoc h]
    exact ih.snoc ((follows_of_reaches h).noted hl)

/-- No line is noted at the level of the finished definition. -/
theorem Noted.level_ne_info {before fields : List String} {directive : Directive}
    {records : List Record} (h : Noted before directive fields records) :
    ∀ r ∈ records, r.level ≠ .info := by
  cases h with
  | param =>
    rw [warningAfter]
    split <;> simp [warning]
  | setting => simp
  | texture | paramProp | keybinding => simp

theorem Trace.level_ne_info {lines : List String} {notes : List Record} (h : Trace lines notes) :
    ∀ r ∈ notes, r.level ≠ .info := by
  induction h with
  | nil => simp
  | snoc _ hn ih =>
    refine List.forall_mem_append.2 ⟨ih, ?_⟩
    cases hn with
    | source => simp
    | directive _ hn => exact hn.level_ne_info

/-! ### Lines that are refused -/

/-- A line that is refused is noted only if it is belated. -/
theorem Follows.refused {lines : List String} {line : String} {d : Definition}
    {e : DirectiveError} (h : Follows lines d) (hl : (d.step line).result = .error e) :
    (∃ name, Belated lines line name ∧ (d.step line).records = [warning name]) ∨
      (∀ name, ¬ Belated lines line name) ∧ (d.step line).records = [] := by
  obtain ⟨directive, args, hclass, hr⟩ := Definition.result_step_eq_error.1 hl
  rw [Definition.records_step_of_error hclass hr]
  by_cases hb : ∃ name, Belated lines line name
  · left
    obtain ⟨name, hb⟩ := hb
    refine ⟨name, hb, ?_⟩
    obtain ⟨args', location, word, rest, n, k, hc, hf, hn, hk, -, hany⟩ := hb
    cases hclass.symm.trans hc
    rw [Definition.warnings_param hf (Word.read?_eq_some.2 hn) (Kind.read?_eq_some.2 hk),
      h.takenWarning, warningAfter, if_pos (List.any_eq_true.2 hany)]
  · right
    refine ⟨not_exists.1 hb, ?_⟩
    cases directive with
    | param =>
      generalize hf : Text.fields args = fields
      rw [Definition.warnings, hf]
      fun_cases Definition.declarationWarnings d fields with
      | case1 name location word rest n k hk hn =>
        rw [h.takenWarning, warningAfter, if_neg]
        -- With a name that is taken, what comes behind the kind must be at fault.
        intro hany
        refine hb ⟨name, args, location, word, rest, n, k, hclass, hf, Word.read?_eq_some.1 hn,
          Kind.read?_eq_some.1 hk, fun hbounds => ?_, List.any_eq_true.1 hany⟩
        obtain ⟨control, hcontrol⟩ := readControl_isOk.2 hbounds
        have hok : d.read .param args = .ok (.declare ⟨name, n, control⟩) :=
          readDeclaration_eq_ok.2 ⟨_, _, _, _, _, _, _, hf, hn, hk, hcontrol, rfl⟩
        cases hok.symm.trans hr
      | case2 => rfl
      | case3 => rfl
    | paramProp | texture | setting | keybinding => rfl

/-! ### Counting warnings -/

/-- How many of some records are warnings. -/
def warningCount (records : List Record) : Nat := records.countP (·.level = .warn)

theorem warningCount_append (records records' : List Record) :
    warningCount (records ++ records') = warningCount records + warningCount records' :=
  List.countP_append

theorem warningCount_records (c : Change) : warningCount c.records = 0 := by
  cases c <;> rfl

theorem warningCount_takenWarning (d : Definition) (name : String) :
    warningCount (d.takenWarning name) = if name ∈ d.names then 1 else 0 := by
  have hmem : (d.parameter? name).isSome ↔ name ∈ d.names := by
    simp [Definition.parameter?, Definition.names]
  rw [Definition.takenWarning]
  by_cases h : name ∈ d.names
  · rw [if_pos h, if_pos (hmem.2 h)]
    rfl
  · rw [if_neg h, if_neg (mt hmem.1 h)]
    rfl

/-- What has been noted has a warning for each parameter with a name that is not new. -/
def Counted (d : Definition) (notes : List Record) : Prop :=
  warningCount notes + d.names.toFinset.card = d.names.length

/-- A directive that declares no parameter counts for nothing. -/
theorem Counted.other {d e : Definition} {notes records : List Record} (h : Counted d notes)
    (hrecords : warningCount records = 0) (hnames : e.names = d.names) :
    Counted e (notes ++ records) := by
  rw [Counted, warningCount_append, hrecords, hnames]
  exact h

/-- A declaration has a warning, or a name that is new. -/
theorem Counted.declare {d e : Definition} {notes records : List Record} {name : String}
    (h : Counted d notes) (hrecords : warningCount records = if name ∈ d.names then 1 else 0)
    (hnames : e.names = d.names ++ [name]) : Counted e (notes ++ records) := by
  unfold Counted at h
  rw [Counted, warningCount_append, hrecords, hnames, List.toFinset_append, List.length_append]
  by_cases hmem : name ∈ d.names
  · have hunion : d.names.toFinset ∪ [name].toFinset = d.names.toFinset :=
      Finset.union_eq_left.2 (by simpa using hmem)
    rw [if_pos hmem, hunion, List.length_singleton]
    omega
  · have hdisjoint : Disjoint d.names.toFinset [name].toFinset := by simpa using hmem
    rw [if_neg hmem, Finset.card_union_of_disjoint hdisjoint, List.length_singleton]
    simp only [List.toFinset_cons, List.toFinset_nil, insert_empty_eq, Finset.card_singleton]
    omega

/-- A line that is taken in keeps the count. -/
theorem Counted.snoc {d e : Definition} {line : String} {notes : List Record} (h : Counted d notes)
    (hl : (d.step line).result = .ok e) : Counted e (notes ++ (d.step line).records) := by
  rcases Definition.result_step_eq_ok.1 hl with ⟨hc, rfl⟩ | ⟨c, hs, rfl⟩
  · exact h.other (by rw [Definition.records_step_source hc]; rfl) rfl
  · obtain ⟨directive, args, hclass, hr⟩ := Definition.says_iff.1 hs
    rw [Definition.records_step_of_read hclass hr]
    have hrecords := warningCount_records c
    cases hs with
    | declare hc hf hn hk hcontrol =>
      cases hclass.symm.trans hc
      refine h.declare ?_ List.map_append
      rw [warningCount_append, hrecords, Definition.warnings_param hf hn hk]
      exact warningCount_takenWarning d _
    | attach hc hf hb hz hd =>
      cases hclass.symm.trans hc
      exact h.other hrecords rfl
    | set hc hf hs =>
      cases hclass.symm.trans hc
      exact h.other hrecords (by simp [Definition.names])
    | bindSlot hc hf hp hs hm hv =>
      cases hclass.symm.trans hc
      exact h.other hrecords (Definition.map_updateFirst fun _ => rfl)
    | bindKey hc hf hp hk hm hv =>
      cases hclass.symm.trans hc
      exact h.other hrecords (Definition.map_updateFirst fun _ => rfl)

theorem counted_of_reaches {name : String} {lines : List String} {d : Definition}
    (h : Reaches (.blank name) lines d) : Counted d (run (.blank name) 1 lines).records := by
  induction h with
  | nil => rfl
  | snoc h hl ih =>
    rw [records_run_snoc h]
    exact ih.snoc hl

/-! ### The log of a script -/

theorem records_parse_of_ok {name text : String} {d : Definition}
    (h : (run (.blank name) 1 (Text.lines text)).result = .ok d) :
    (parse name text).records =
      (run (.blank name) 1 (Text.lines text)).records ++ [⟨.info, .loader,
        s!"Loaded filter '{d.name}' " ++
          s!"({d.parameters.length} parameters, {d.textures.length} textures)"⟩] := by
  have hmessage : loaded d = ⟨.info, .loader, s!"Loaded filter '{d.name}' " ++
      s!"({d.parameters.length} parameters, {d.textures.length} textures)"⟩ := by
    simp only [loaded, loaderRecord, String.append_assoc]
    rfl
  rw [parse, parseLines, Logged.records_bind_of_ok h, ← hmessage]
  rfl

theorem records_parse_of_error {name text : String} {e : LineError}
    (h : (run (.blank name) 1 (Text.lines text)).result = .error e) :
    (parse name text).records = (run (.blank name) 1 (Text.lines text)).records := by
  rw [parse, parseLines, Logged.records_bind_of_error h]

/-- **The log is the trace of the lines that are taken in.** Behind it stands, if the script
parses, one record at the level of information, with the final title and the numbers of parameters
and textures; no other record has this level. A line that is refused leaves one warning if it is
belated, and nothing otherwise. So a script that parses has as many warnings as it has parameters
whose name is that of an earlier one. -/
theorem log_traces_parse (name text : String) :
    (∀ d, (parse name text).result = .ok d →
      ∃ notes, (∀ records, Trace (Text.lines text) records ↔ records = notes) ∧
        (parse name text).records = notes ++ [⟨.info, .loader, s!"Loaded filter '{d.name}' " ++
          s!"({d.parameters.length} parameters, {d.textures.length} textures)"⟩] ∧
        (∀ r ∈ notes, r.level ≠ .info) ∧
        (parse name text).records.countP (·.level = .warn) + d.names.toFinset.card =
          d.parameters.length) ∧
    ∀ n c, (parse name text).result = .error ⟨n, c⟩ →
      ∃ before line after notes last, Text.lines text = before ++ line :: after ∧
        n = before.length + 1 ∧ (∀ records, Trace before records ↔ records = notes) ∧
        (parse name text).records = notes ++ last ∧
        (∀ r ∈ (parse name text).records, r.level ≠ .info) ∧
        ((∃ key, Belated before line key ∧ last = [warning key]) ∨
          (∀ key, ¬ Belated before line key) ∧ last = []) := by
  constructor
  · intro d h
    have hreach := result_parse_eq_ok.1 h
    have htrace := trace_of_reaches hreach
    have hrecords := records_parse_of_ok (result_run_eq_ok.2 hreach)
    refine ⟨_, htrace.iff_eq, hrecords, htrace.level_ne_info, ?_⟩
    have hcount : (parse name text).records.countP (·.level = .warn) =
        warningCount (run (.blank name) 1 (Text.lines text)).records := by
      rw [hrecords, List.countP_append]
      rfl
    have hlength : d.names.length = d.parameters.length := List.length_map _
    rw [hcount, counted_of_reaches hreach, hlength]
  · intro n c h
    have hrun := (result_parseLines name _).symm.trans h
    have hrecords := records_parse_of_error hrun
    obtain ⟨before, line, after, d, hlines, hn, hreach, hl⟩ := result_parse_eq_error.1 h
    have htrace := trace_of_reaches hreach
    have hlast := (follows_of_reaches hreach).refused hl
    rw [hlines, records_run_append (result_run_eq_ok.2 hreach), records_run_cons_of_error hl]
      at hrecords
    refine ⟨before, line, after, _, _, hlines, hn, htrace.iff_eq, hrecords, ?_, hlast⟩
    rw [hrecords, List.forall_mem_append]
    refine ⟨htrace.level_ne_info, ?_⟩
    rcases hlast with ⟨key, -, hlast⟩ | ⟨-, hlast⟩
    · simp [hlast, warning]
    · simp [hlast]

/-- A script that declares a name twice. -/
def declaredAgain : String := "#param a,0,float\n#param a,1,int"

/-- A script whose second line declares the name again, with a default that is no integer. -/
def refusedAgain : String := "#param a,0,float\n#param a,1,int,x"

/-- The second declaration is warned about, also where it is refused. -/
theorem log_traces_parse_again :
    (∃ d notes, (parse "f" declaredAgain).result = .ok d ∧ Trace (Text.lines declaredAgain) notes ∧
      (parse "f" declaredAgain).records = notes ++
        [⟨.info, .loader, "Loaded filter 'f' (2 parameters, 0 textures)"⟩] ∧
      (parse "f" declaredAgain).records.countP (·.level = .warn) + d.names.toFinset.card =
        d.parameters.length) ∧
    ∃ notes, (parse "f" refusedAgain).result = .error ⟨2, .conversion .int "x"⟩ ∧
      Trace ["#param a,0,float"] notes ∧
      (parse "f" refusedAgain).records = notes ++ [warning "a"] := by
  have hok : (parse "f" declaredAgain).result.toOption.map (fun d =>
      s!"Loaded filter '{d.name}' " ++
        s!"({d.parameters.length} parameters, {d.textures.length} textures)") =
      some "Loaded filter 'f' (2 parameters, 0 textures)" := by decide +kernel
  have herror : (parse "f" refusedAgain).result = .error ⟨2, .conversion .int "x"⟩ := by rfl
  have hlines : Text.lines refusedAgain = ["#param a,0,float", "#param a,1,int,x"] := by
    decide +kernel
  have hclass : Directive.classify? "#param a,1,int,x" = some (.param, " a,1,int,x") := by
    decide +kernel
  have hfields : Text.fields " a,1,int,x" = ["a", "1", "int", "x"] := by decide +kernel
  constructor
  · obtain ⟨d, hd, hmessage⟩ := Option.map_eq_some_iff.1 hok
    have h := toOption_eq_some.1 hd
    obtain ⟨notes, htrace, hrecords, -, hcount⟩ := (log_traces_parse "f" declaredAgain).1 d h
    rw [hmessage] at hrecords
    exact ⟨d, notes, h, (htrace notes).2 rfl, hrecords, hcount⟩
  · obtain ⟨before, line, after, notes, last, hsplit, hn, htrace, hrecords, -, hlast⟩ :=
      (log_traces_parse "f" refusedAgain).2 _ _ herror
    rw [hlines] at hsplit
    obtain ⟨first, rfl⟩ := List.length_eq_one_iff.1 (Nat.succ.inj hn).symm
    obtain ⟨rfl, rfl, rfl⟩ : "#param a,0,float" = first ∧ "#param a,1,int,x" = line ∧
        [] = after := by simpa using hsplit
    refine ⟨notes, herror, (htrace notes).2 rfl, ?_⟩
    rcases hlast with ⟨key, ⟨args, location, word, rest, n, k, hc, hf, -⟩, rfl⟩ | ⟨hnot, -⟩
    · cases hclass.symm.trans hc
      cases hfields.symm.trans hf
      exact hrecords
    · have hlocation : Word.Written "1" ⟨1, by decide, by decide⟩ :=
        Word.read?_eq_some.1 (by decide +kernel)
      have hbounds : ¬ Kind.Bounds .int ["x"] := by
        rw [← readControl_isOk]
        rintro ⟨c, hc⟩
        cases hc
      have hdeclares : declares "a" "#param a,0,float" := by decide +kernel
      exact absurd ⟨_, _, _, _, _, .int, hclass, hfields, hlocation, by decide, hbounds, _,
        List.mem_singleton_self _, hdeclares⟩ (hnot "a")

end Script

end ShaderFilter
