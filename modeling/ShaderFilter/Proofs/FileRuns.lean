import ShaderFilter.Proofs.CommandLines
import ShaderFilter.Proofs.KeyWords
import ShaderFilter.Proofs.Reports
import Mathlib.Data.List.Forall2

/-!
# Runs on files

A run on files reads the words for the keys before it looks at any file. One word that stands for
no key ends it, with nothing written. Otherwise every file is treated by itself: what a run writes
is what its files add to it one after the other (`stdout_run`), and a file that cannot be loaded
adds nothing. So the output of a run is made up of the outputs of runs on a part of the files
each, and files that fail may as well be left out. The exit code tells whether there are any.

A command line asks for files and for what is to be done with them (`Asks`). Which files there are
does not matter for the rest: the keys and the reports are those of the other options.
-/

namespace ShaderFilter.Cli

/-! ### The words for the keys -/

/-- Words are read as keys if each of them is written for its key. -/
theorem readKeys_eq_ok {words : List String} {keys : List Key} :
    readKeys words = .ok keys ↔ List.Forall₂ Key.Written words keys := by
  induction words generalizing keys with
  | nil => simp [readKeys, eq_comm]
  | cons word words ih =>
    rw [readKeys, List.forall₂_cons_left_iff]
    simp only [← ih, ← Key.read?_eq_some]
    cases Key.read? word with
    | none => simp
    | some k => cases readKeys words <;> simp [Except.map, eq_comm]

/-- A word that is written for no key is refused, wherever it stands. -/
theorem exists_readKeys_eq_ok {words : List String} :
    (∃ keys, readKeys words = .ok keys) ↔ ∀ word ∈ words, ∃ k, Key.Written word k := by
  simp only [readKeys_eq_ok]
  induction words with
  | nil => simp
  | cons word words ih =>
    simp only [List.forall_mem_cons, ← ih, List.forall₂_cons_left_iff]
    constructor
    · rintro ⟨_, k, keys, hk, hkeys, -⟩
      exact ⟨⟨k, hk⟩, keys, hkeys⟩
    · rintro ⟨⟨k, hk⟩, keys, hkeys⟩
      exact ⟨_, k, keys, hk, hkeys, rfl⟩

/-! ### The run of a command line -/

/-- A command line asks for files, and for the rest of the options. -/
def Asks (o : Options) (files args : List String) : Prop :=
  Options.read args = .ok { o with files }

/-- A file cannot be loaded. -/
def fails (t : Files.Tree) (path : String) : Bool := !(loadFilter t path).result.isOk

/-- The message of a run in which files fail: how many of how many. -/
def failureMessage (failed all : Nat) : String := s!"{failed} of {all} filters failed to load"

theorem fails_iff {t : Files.Tree} {path : String} :
    fails t path ↔ ∃ e, (loadFilter t path).result = .error e := by
  rw [fails]
  cases (loadFilter t path).result <;> simp [Except.isOk, Except.toBool]

theorem not_fails_iff {t : Files.Tree} {path : String} :
    ¬ fails t path ↔ ∃ d, (loadFilter t path).result = .ok d := by
  rw [fails]
  cases (loadFilter t path).result <;> simp [Except.isOk, Except.toBool]

/-- A file that can be loaded adds the report about its filter to the output. -/
theorem output_fileReport_of_ok {t : Files.Tree} {path : String} {d : Definition}
    (h : (loadFilter t path).result = .ok d) (o : Options) (keys : List Key) :
    (fileReport t o keys path).output = report o keys d := by
  simp only [fileReport, h]

/-- A file that cannot be loaded adds nothing to the output. -/
theorem output_fileReport_of_fails {t : Files.Tree} {path : String} (h : fails t path)
    (o : Options) (keys : List Key) : (fileReport t o keys path).output = "" := by
  obtain ⟨e, he⟩ := fails_iff.1 h
  simp only [fileReport, he]

theorem failed_fileReport (t : Files.Tree) (o : Options) (keys : List Key) (path : String) :
    (fileReport t o keys path).failed = fails t path := by
  unfold fails
  cases h : (loadFilter t path).result <;> simp only [fileReport, h] <;> rfl

/-- The reports about files fail if one of the files does. -/
theorem failure_reportFiles (t : Files.Tree) (o : Options) (keys : List Key) :
    (reportFiles t o keys).failure =
      if o.files.countP (fails t) = 0 then none
      else some (failureMessage (o.files.countP (fails t)) o.files.length) := by
  have hcount : (o.files.map (fileReport t o keys)).countP FileReport.failed =
      o.files.countP (fails t) := by
    rw [List.countP_map]
    exact List.countP_congr fun file _ => by rw [Function.comp_apply, failed_fileReport]
  simp only [reportFiles, hcount, failureMessage]

/-- With words that can be read, a run on files makes the reports about them. -/
theorem perform_of_readKeys {files : List String} {o : Options} {keys : List Key}
    (hlist : o.list = false) (hfiles : files ≠ []) (hkeys : readKeys o.press = .ok keys)
    (builtIn : String) (t : Files.Tree) (c : Config) :
    perform builtIn t { o with files } c = reportFiles t { o with files } keys := by
  simp [perform, hlist, hfiles, hkeys]

section

variable (env : Environment) (t : Files.Tree) (log : String)
variable {o : Options} {files args : List String}

/-- The output of a run is what its files add to it, one after the other. -/
theorem stdout_run {keys : List Key} (h : Asks o files args) (hlist : o.list = false)
    (hfiles : files ≠ []) (hkeys : readKeys o.press = .ok keys) :
    (run env t log args).stdout =
      String.join (files.map fun file => (fileReport t o keys file).output) := by
  rw [stdout_of_read h, transcript, perform_of_readKeys hlist hfiles hkeys, reportFiles, List.map_map]
  rfl

/-- A run ends well if none of its files fails; otherwise it says how many of them do. -/
theorem ending_run {keys : List Key} (h : Asks o files args) (hlist : o.list = false)
    (hfiles : files ≠ []) (hkeys : readKeys o.press = .ok keys) :
    ((∀ file ∈ files, ¬ fails t file) → (run env t log args).exit = 0) ∧
    ((∃ file ∈ files, fails t file) → (run env t log args).exit = 1 ∧
      ∃ earlier, (run env t log args).stderr = earlier ++
        line ("Error: " ++ failureMessage (files.countP (fails t)) files.length)) := by
  have hfailure : (transcript env t { o with files }).failure =
      if files.countP (fails t) = 0 then none
      else some (failureMessage (files.countP (fails t)) files.length) := by
    rw [transcript, perform_of_readKeys hlist hfiles hkeys]
    exact failure_reportFiles t { o with files } keys
  obtain ⟨hwell, hill⟩ := ending_of_read h env t log
  constructor
  · intro hnone
    rw [if_pos (List.countP_eq_zero.2 hnone)] at hfailure
    exact hwell hfailure
  · rintro ⟨file, hmem, hfile⟩
    rw [if_neg (List.countP_pos_iff.2 ⟨file, hmem, hfile⟩).ne'] at hfailure
    exact hill _ hfailure

/-- A run with a word that is written for no key ends with an error and no output. -/
theorem run_of_unreadable {word : String} (h : Asks o files args) (hlist : o.list = false)
    (hkeys : readKeys o.press = .error word) :
    (run env t log args).stdout = "" ∧ (run env t log args).exit = 1 := by
  have hperform (c : Config) : (perform (env.filters t) t { o with files } c).output = "" ∧
      ∃ message, (perform (env.filters t) t { o with files } c).failure = some message := by
    by_cases hfiles : files = []
    · simp [perform, hlist, hfiles]
    · simp [perform, hlist, hfiles, hkeys]
  obtain ⟨houtput, message, hmessage⟩ :=
    hperform (configuration Config.read? env.toEnvironment t { o with files })
  have hfailure : (transcript env t { o with files }).failure = some message := hmessage
  constructor
  · exact (stdout_of_read h env t log).trans houtput
  · exact ((ending_of_read h env t log).2 _ hfailure).1

end

/-- **Files are treated one by one.** If each word for a key is written for one, a run on one file
writes the report about its filter, with the lines that the options ask for, or nothing if it cannot
be loaded; a run on more files writes
what the runs on a part of them each write, one after the other, and a file that cannot be loaded
may be left out. The run ends well if all files can be loaded, and otherwise with a message that
says how many of how many cannot, where every file counts as often as it is given. A word that is
written for no key ends every run before anything is written. -/
theorem files_independent (env : Environment) (t : Files.Tree) (log : String) (o : Options)
    (hlist : o.list = false) :
    ((∀ word ∈ o.press, ∃ k, Key.Written word k) →
      (∃ keys, List.Forall₂ Key.Written o.press keys ∧
        ∀ file args d, Asks o [file] args → (loadFilter t file).result = .ok d →
          (run env t log args).stdout = report o keys d ∧
          ∃ lines, ReportLines o keys d lines ∧ (run env t log args).stdout = joinLines lines) ∧
      (∀ file args, Asks o [file] args → fails t file → (run env t log args).stdout = "") ∧
      (∀ xs ys args argsX argsY, xs ≠ [] → ys ≠ [] → Asks o (xs ++ ys) args →
        Asks o xs argsX → Asks o ys argsY → (run env t log args).stdout =
          (run env t log argsX).stdout ++ (run env t log argsY).stdout) ∧
      (∀ xs file ys args argsRest, xs ++ ys ≠ [] → Asks o (xs ++ file :: ys) args →
        Asks o (xs ++ ys) argsRest → fails t file →
        (run env t log args).stdout = (run env t log argsRest).stdout) ∧
      ∀ files args, files ≠ [] → Asks o files args →
        ((run env t log args).exit = 0 ↔ ∀ file ∈ files, ¬ fails t file) ∧
        ((∃ file ∈ files, fails t file) → (run env t log args).exit = 1 ∧
          ∃ earlier, (run env t log args).stderr = earlier ++
            line ("Error: " ++ failureMessage (files.countP (fails t)) files.length))) ∧
    ((∃ word ∈ o.press, ∀ k, ¬ Key.Written word k) → ∀ files args, Asks o files args →
      (run env t log args).stdout = "" ∧ (run env t log args).exit = 1) := by
  constructor
  · intro hpress
    obtain ⟨keys, hkeys⟩ := exists_readKeys_eq_ok.2 hpress
    have hstdout {files args : List String} (hne : files ≠ []) (h : Asks o files args) :
        (run env t log args).stdout =
          String.join (files.map fun file => (fileReport t o keys file).output) :=
      stdout_run env t log h hlist hne hkeys
    refine ⟨⟨keys, readKeys_eq_ok.1 hkeys, ?_⟩, ?_, ?_, ?_, ?_⟩
    · intro file args d h hd
      have hreport : (run env t log args).stdout = report o keys d := by
        rw [hstdout (List.cons_ne_nil _ _) h]
        simp [output_fileReport_of_ok hd]
      obtain ⟨lines, hlines, heq⟩ := exists_reportLines o keys d
      exact ⟨hreport, lines, hlines, hreport.trans heq⟩
    · intro file args h hfails
      rw [hstdout (List.cons_ne_nil _ _) h]
      simp [output_fileReport_of_fails hfails]
    · intro xs ys args argsX argsY hx hy h hX hY
      rw [hstdout (List.append_ne_nil_of_left_ne_nil hx _) h, hstdout hx hX, hstdout hy hY,
        List.map_append, String.join_append]
    · intro xs file ys args argsRest hne h hrest hfails
      rw [hstdout (by simp) h, hstdout hne hrest]
      simp [output_fileReport_of_fails hfails, String.join_append]
    · intro files args hne h
      obtain ⟨hwell, hill⟩ := ending_run env t log h hlist hne hkeys
      refine ⟨⟨?_, hwell⟩, hill⟩
      intro hexit file hmem hfails
      have hone := (hill ⟨file, hmem, hfails⟩).1
      omega
  · rintro ⟨word, hword, hnone⟩ files args h
    cases hkeys : readKeys o.press with
    | ok keys =>
      obtain ⟨k, hk⟩ := exists_readKeys_eq_ok.1 ⟨keys, hkeys⟩ word hword
      exact absurd hk (hnone k)
    | error word => exact run_of_unreadable env t log h hlist hkeys

/-- A tree with one filter file, whose parameter has an action on a key. -/
def oneFilter : Files.Tree :=
  ⟨[(["a"], .file (Text.bytes "#param g,0,int\n#keybinding g,Up,5,add"))], []⟩

theorem fails_oneFilter : ¬ fails oneFilter "a" ∧ fails oneFilter "b" := by
  have hsteps : ["a", "b"].map Files.Path.steps = [[.name "a"], [.name "b"]] := by decide +kernel
  have hsize : ["a", "b"].map String.utf8ByteSize = [1, 1] := by decide +kernel
  simp only [List.map_cons, List.map_nil, List.cons.injEq, and_true] at hsteps hsize
  have ha : oneFilter.read "a" = .ok (Text.bytes "#param g,0,int\n#keybinding g,Up,5,add") := by
    simp [oneFilter, Files.Tree.read, Files.Tree.resolve, Files.Tree.follow, Files.Tree.at?,
      Files.Tree.linkLimit, hsteps, hsize]
    rfl
  have hb : oneFilter.read "b" = .error .notFound := by
    simp [oneFilter, Files.Tree.read, Files.Tree.resolve, Files.Tree.follow, Files.Tree.at?,
      Files.Tree.linkLimit, hsteps, hsize]
  constructor
  · rw [fails, loadFilter, ha]
    decide +kernel
  · rw [fails, loadFilter, hb]
    rfl

/-- The run on files of this tree that writes documents and sources and presses a key. -/
def oneFilterRun (key : String) (files : List String) : Outcome :=
  run ⟨⟨none, none⟩, ⟨none, ""⟩⟩ oneFilter ""
    (Options.commandLine { files, json := true, source := true, press := [key] })

/-- A file is given twice, with one that is missing in between. -/
theorem files_independent_missing :
    (∃ d keys, (loadFilter oneFilter "a").result = .ok d ∧ List.Forall₂ Key.Written ["Up"] keys ∧
      (oneFilterRun "Up" ["a"]).stdout =
        report { json := true, source := true, press := ["Up"] } keys d ∧
      ∃ lines, ReportLines { json := true, source := true, press := ["Up"] } keys d lines ∧
        (oneFilterRun "Up" ["a"]).stdout = joinLines lines) ∧
    (oneFilterRun "Up" ["b"]).stdout = "" ∧
    (oneFilterRun "Up" ["a", "b", "a"]).stdout =
      (oneFilterRun "Up" ["a"]).stdout ++ (oneFilterRun "Up" ["b", "a"]).stdout ∧
    (oneFilterRun "Up" ["a", "b", "a"]).stdout = (oneFilterRun "Up" ["a", "a"]).stdout ∧
    (oneFilterRun "Up" ["a", "b", "a"]).exit = 1 ∧
    (∃ earlier, (oneFilterRun "Up" ["a", "b", "a"]).stderr =
      earlier ++ "Error: 1 of 3 filters failed to load\n") ∧
    (oneFilterRun "up" ["a", "b", "a"]).stdout = "" ∧
    (oneFilterRun "up" ["a", "b", "a"]).exit = 1 := by
  obtain ⟨ha, hb⟩ := fails_oneFilter
  obtain ⟨d, hd⟩ := not_fails_iff.1 ha
  have hasks (key : String) (files : List String) (h : ∀ file ∈ files, file ≠ "") :
      Asks { json := true, source := true, press := [key] } files
        (Options.commandLine { files, json := true, source := true, press := [key] }) :=
    Options.read_commandLine ⟨h, by simp, by simp, by simp⟩
  have hup : ∀ word ∈ ["Up"], ∃ k, Key.Written word k := by
    rw [List.forall_mem_singleton, ← Key.read?_isSome]
    decide +kernel
  have hlower : ∃ word ∈ ["up"], ∀ k, ¬ Key.Written word k := by
    refine ⟨"up", List.mem_singleton_self _, ?_⟩
    rw [← not_exists, ← Key.read?_isSome]
    decide +kernel
  obtain ⟨⟨keys, hkeys, hone⟩, hnone, happend, hrest, hend⟩ := (files_independent ⟨⟨none, none⟩, ⟨none, ""⟩⟩
    oneFilter "" { json := true, source := true, press := ["Up"] } rfl).1 hup
  obtain ⟨hstdout, hexit⟩ := (files_independent ⟨⟨none, none⟩, ⟨none, ""⟩⟩
    oneFilter "" { json := true, source := true, press := ["up"] } rfl).2 hlower _ _
      (hasks "up" ["a", "b", "a"] (by simp))
  obtain ⟨hill, earlier, hstderr⟩ := (hend _ _ (by simp)
    (hasks "Up" ["a", "b", "a"] (by simp))).2 ⟨"b", by simp, hb⟩
  refine ⟨⟨d, keys, hd, hkeys, hone _ _ _ (hasks _ _ (by simp)) hd⟩,
    hnone _ _ (hasks _ _ (by simp)) hb,
    happend ["a"] ["b", "a"] _ _ _ (by simp) (by simp) (hasks _ _ (by simp)) (hasks _ _ (by simp))
      (hasks _ _ (by simp)),
    hrest ["a"] "b" ["a"] _ _ (by simp) (hasks _ _ (by simp)) (hasks _ _ (by simp)) hb,
    hill, ⟨earlier, hstderr.trans ?_⟩, hstdout, hexit⟩
  have hcount : ["a", "b", "a"].countP (fails oneFilter) = 1 := by
    simp [ha, hb]
  rw [hcount]
  congr 1

end ShaderFilter.Cli
