import ShaderFilter.Proofs.CommandLines
import ShaderFilter.Proofs.Listing
import ShaderFilter.Proofs.Text.StrictDecoding

/-!
# The configuration of a run

The configuration of a run is settled in two steps. First the configuration file is located
(`Config.Located`): the command line names it, or it is the first candidate that exists. Then the
file provides a configuration (`Config.Provides`), which is the standard one wherever there is
nothing to read. Each step has one outcome, and no step comes back to an earlier one, so what cannot
be loaded does not make the search go on.

A file is located by looking at the candidates up to it. Whatever is done to the candidates behind
it, it is located as before and provides the same (`Config.Located.later`).

What a list of filters searches with the configuration is told by what it writes (`Cli.Listing`).
-/

namespace ShaderFilter

/-! ### Texts in files -/

namespace Files.Tree

variable {t t' : Tree} {path : String}

/-- A path leads to a file with a text. -/
def HasText (t : Tree) (path text : String) : Prop := t.read path = .ok (Text.bytes text)

/-- What is at the end of a path decides whether anything is there, -/
theorem has_congr (h : t'.resolve path = t.resolve path) : t'.has path = t.has path := by
  rw [has, has, h]

/-- and what text a file has there. -/
theorem hasText_congr (h : t'.resolve path = t.resolve path) (text : String) :
    t'.HasText path text ↔ t.HasText path text := by
  rw [HasText, HasText, read, read, h]

end Files.Tree

namespace Config

open Files (Tree)

variable {reader : String → Option Config} {env env' : Environment} {t t' : Tree}
  {chosen path? : Option String} {passed : List String} {path : String} {c : Config}

theorem textOf?_eq_some {text : String} : textOf? t path = some text ↔ t.HasText path text := by
  rw [textOf?, Tree.HasText]
  cases t.read path with
  | error e => simp
  | ok bytes =>
    simp only [Option.map_eq_some_iff, Text.Utf8.decode?_eq_some, Except.ok.injEq]
    constructor
    · rintro ⟨cs, rfl, rfl⟩
      rfl
    · rintro rfl
      exact ⟨text.toList, by rw [String.ofList_toList], String.ofList_toList⟩

/-! ### Locating the file -/

/-- The folder of configuration files on the platform. -/
def Environment.platform? (env : Environment) : Option String :=
  env.configHome <|> env.home.map (Files.Path.join · ".config")

/-- The candidates are in the working folder, in the home folder and on the platform. -/
theorem candidates_eq (env : Environment) :
    env.candidates = ["filterscript.toml"] ++
      (env.home.map fun home => Environment.fileIn (Files.Path.join home ".config")).toList ++
      (env.platform?.map Environment.fileIn).toList := by
  obtain ⟨home, configHome⟩ := env
  cases home <;> cases configHome <;> rfl

/-- The configuration file is at a place, if there is one, and the candidates `passed` have been
looked at before it in vain. -/
inductive Located (env : Environment) (t : Tree) :
    Option String → List String → Option String → Prop where
  /-- The command line names the file, whether or not it is there. -/
  | given {path : String} : Located env t (some path) [] (some path)
  /-- It is the first candidate that exists. -/
  | found {passed later : List String} {path : String} :
      env.candidates = passed ++ path :: later → (∀ p ∈ passed, ¬ t.has p) → t.has path →
      Located env t none passed (some path)
  /-- No candidate exists. -/
  | missing : (∀ p ∈ env.candidates, ¬ t.has p) → Located env t none env.candidates none

theorem Located.eq (h : Located env t chosen passed path?) : (chosen <|> find? env t) = path? := by
  cases h with
  | given => rfl
  | @found passed later path hc hpassed hpath =>
    refine List.find?_eq_some_iff_append.2 ⟨hpath, passed, later, hc, ?_⟩
    simpa using hpassed
  | missing hnone =>
    refine List.find?_eq_none.2 ?_
    simpa using hnone

theorem exists_located (env : Environment) (t : Tree) (chosen : Option String) :
    ∃ passed path?, Located env t chosen passed path? := by
  cases chosen with
  | some path => exact ⟨[], some path, .given⟩
  | none =>
    cases h : find? env t with
    | some path =>
      obtain ⟨hpath, passed, later, hc, hpassed⟩ := List.find?_eq_some_iff_append.1 h
      exact ⟨passed, some path, .found hc (by simpa using hpassed) hpath⟩
    | none => exact ⟨_, none, .missing (by simpa [find?] using h)⟩

/-- A file is located as before, whatever happens to the candidates behind it. -/
theorem Located.later (h : Located env t chosen passed (some path))
    (hcandidates : chosen = none → passed ++ [path] <+: env'.candidates)
    (htree : ∀ p ∈ passed ++ [path], t'.resolve p = t.resolve p) :
    Located env' t' chosen passed (some path) := by
  cases h with
  | given => exact .given
  | found _ hpassed hpath =>
    obtain ⟨later, hlater⟩ := hcandidates rfl
    have hc : env'.candidates = passed ++ path :: later := by
      rw [← hlater, List.append_assoc, List.singleton_append]
    refine .found hc (fun p hp => ?_) ?_
    · rw [Tree.has_congr (htree p (List.mem_append_left _ hp))]
      exact hpassed p hp
    · rw [Tree.has_congr (htree path (by simp))]
      exact hpath

/-! ### What the file provides -/

/-- What the configuration file provides, in the words of a reader of texts. -/
inductive Provides (reader : String → Option Config) (t : Tree) : Option String → Config → Prop where
  /-- The reader accepts the text of the file. -/
  | accepted {path text : String} {c : Config} : t.HasText path text → reader text = some c →
      Provides reader t (some path) c
  /-- The reader refuses the text of the file. -/
  | refused {path text : String} : t.HasText path text → reader text = none →
      Provides reader t (some path) standard
  /-- No file with a text is there. -/
  | unreadable {path : String} : (∀ text, ¬ t.HasText path text) →
      Provides reader t (some path) standard
  /-- There is no configuration file. -/
  | missing : Provides reader t none standard

theorem exists_provides (reader : String → Option Config) (t : Tree) (path? : Option String) :
    ∃ c, Provides reader t path? c := by
  cases path? with
  | none => exact ⟨_, .missing⟩
  | some path =>
    by_cases h : ∃ text, t.HasText path text
    · obtain ⟨text, htext⟩ := h
      cases hc : reader text with
      | some c => exact ⟨c, .accepted htext hc⟩
      | none => exact ⟨_, .refused htext hc⟩
    · exact ⟨_, .unreadable (not_exists.1 h)⟩

/-- Only what is at the path counts. -/
theorem Provides.congr (h : t'.resolve path = t.resolve path)
    (hp : Provides reader t (some path) c) : Provides reader t' (some path) c := by
  cases hp with
  | accepted htext hc => exact .accepted ((Tree.hasText_congr h _).2 htext) hc
  | refused htext hc => exact .refused ((Tree.hasText_congr h _).2 htext) hc
  | unreadable hnone => exact .unreadable fun text => mt (Tree.hasText_congr h text).1 (hnone text)

theorem Provides.load? (h : Provides reader t (some path) c) :
    (Config.load? reader t path).getD standard = c := by
  cases h with
  | accepted htext hc =>
    rw [Config.load?, textOf?_eq_some.2 htext, Option.bind_eq_bind, Option.bind_some, hc]
    rfl
  | refused htext hc =>
    rw [Config.load?, textOf?_eq_some.2 htext, Option.bind_eq_bind, Option.bind_some, hc]
    rfl
  | unreadable hnone =>
    have htext : textOf? t path = none := by
      rw [Option.eq_none_iff_forall_ne_some]
      exact fun text => mt textOf?_eq_some.1 (hnone text)
    rw [Config.load?, htext]
    rfl

/-- The configuration in effect is what the located file provides. -/
theorem inEffect_eq (hl : Located env t chosen passed path?) (hp : Provides reader t path? c) :
    inEffect reader env t chosen = c := by
  rw [inEffect, hl.eq]
  cases path? with
  | some path => exact hp.load?
  | none =>
    cases hp
    rfl

/-! ### What the command line replaces -/

/-- Replacing a second time changes nothing more. -/
theorem override_override (c : Config) (dirs extensions : List String) :
    (c.override dirs extensions).override dirs extensions = c.override dirs extensions := by
  by_cases hd : dirs = [] <;> by_cases he : extensions = [] <;> simp [override, hd, he]

end Config

namespace Cli

/-- A run that lists filters searches the configured folders and then that of the built-in ones. -/
theorem listing_perform {builtIn : String} {t : Files.Tree} {o : Options} {c : Config}
    (hlist : o.list = true) (ht : t.Distinct) :
    Listing t (c.dirs ++ [builtIn]) c.extensions (perform builtIn t o c).output
      (perform builtIn t o c).failure := by
  rw [perform, if_pos hlist]
  exact listing_listFilters ht _ _

/-- **The configuration of a run follows one precedence.** The configuration file is the one that the
command line names, or else the first candidate that exists; there are at most three candidates.
What is read from the text of the file is in effect, or the standard configuration where there is
no file, no text in it, or none that the reader accepts, whatever the candidates behind it hold. The
standard configuration has no folders, and four extensions. Folders of the command line replace the
configured ones, and extensions the configured ones, each by themselves and only where some are
given; to do so again changes nothing. A list of filters is one of the files in exactly these folders
and then in the folder of the built-in filters, and this is what the run writes.

The places that are looked at are the candidates up to the file. An environment and a tree that
agree on them give the same configuration. -/
theorem configuration_precedence (reader : String → Option Config) (env : Config.Environment)
    (i : Installation) (t : Files.Tree) (o : Options) :
    env.candidates = ["filterscript.toml"] ++
      (env.home.map fun home => Config.Environment.fileIn (Files.Path.join home ".config")).toList ++
      (env.platform?.map Config.Environment.fileIn).toList ∧
    (∃ passed path? c, Config.Located env t o.config passed path? ∧
      Config.Provides reader t path? c) ∧
    (∀ passed path? c, Config.Located env t o.config passed path? →
      Config.Provides reader t path? c →
      (configuration reader env t o).dirs = (if o.dirs = [] then c.dirs else o.dirs) ∧
      (configuration reader env t o).extensions =
        if o.extensions = [] then c.extensions else o.extensions) ∧
    Config.standard = ⟨[], ["comp", "glsl", "hlsl", "frag"]⟩ ∧
    (∀ folder, i.Offers t folder ↔ i.filters t = folder) ∧
    (o.list = true → t.Distinct →
      Listing t ((configuration reader env t o).dirs ++ [i.filters t])
        (configuration reader env t o).extensions
        (perform (i.filters t) t o (configuration reader env t o)).output
        (perform (i.filters t) t o (configuration reader env t o)).failure) ∧
    (∀ args log, Options.read args = .ok o → o.list = true → t.Distinct → ∃ failure,
      Listing t ((configuration Config.read? env t o).dirs ++ [i.filters t])
        (configuration Config.read? env t o).extensions (run ⟨env, i⟩ t log args).stdout failure ∧
      (failure = none → (run ⟨env, i⟩ t log args).exit = 0) ∧
      ∀ message, failure = some message → (run ⟨env, i⟩ t log args).exit = 1 ∧
        ∃ earlier, (run ⟨env, i⟩ t log args).stderr = earlier ++ line ("Error: " ++ message)) ∧
    (∀ passed path env' t', Config.Located env t o.config passed (some path) →
      (o.config = none → passed ++ [path] <+: env'.candidates) →
      (∀ p ∈ passed ++ [path], t'.resolve p = t.resolve p) →
      configuration reader env' t' o = configuration reader env t o) ∧
    ∀ c : Config, (c.override o.dirs o.extensions).override o.dirs o.extensions =
      c.override o.dirs o.extensions := by
  refine ⟨Config.candidates_eq env, ?_, ?_, rfl, fun _ => Installation.offers_iff,
    listing_perform, ?_, ?_, fun c => c.override_override _ _⟩
  · obtain ⟨passed, path?, hl⟩ := Config.exists_located env t o.config
    obtain ⟨c, hp⟩ := Config.exists_provides reader t path?
    exact ⟨passed, path?, c, hl, hp⟩
  · intro passed path? c hl hp
    rw [configuration, Config.inEffect_eq hl hp]
    exact ⟨rfl, rfl⟩
  · intro args log hargs hlist ht
    refine ⟨(transcript ⟨env, i⟩ t o).failure, ?_, ending_of_read hargs ⟨env, i⟩ t log⟩
    rw [stdout_of_read hargs]
    exact listing_perform hlist ht
  · intro passed path env' t' hl hcandidates htree
    obtain ⟨c, hp⟩ := Config.exists_provides reader t (some path)
    have hp' := hp.congr (htree path (by simp))
    rw [configuration, configuration, Config.inEffect_eq (hl.later hcandidates htree) hp',
      Config.inEffect_eq hl hp]

/-- A tree with a byte that is no text in the configuration file of the home folder, with a
configuration on the platform, and with a built-in filter. -/
def damagedHome : Files.Tree := .build []
  [(["h", ".config", "filterscript", "config.toml"], .file [0xff]),
    (["x", "filterscript", "config.toml"], .file (Text.bytes "filters.dirs = ['a']")),
    (["p", "filters", "b.comp"], .file [])]

/-- The tree without the configuration on the platform. -/
def damagedHomeOnly : Files.Tree := .build []
  [(["h", ".config", "filterscript", "config.toml"], .file [0xff])]

theorem resolve_damagedHome {t : Files.Tree} (ht : t = damagedHome ∨ t = damagedHomeOnly) :
    t.resolve "filterscript.toml" = .error .notFound ∧
    t.resolve "h/.config/filterscript/config.toml" =
      .ok (["h", ".config", "filterscript", "config.toml"], .file [0xff]) := by
  have hsteps : ["filterscript.toml", "h/.config/filterscript/config.toml"].map Files.Path.steps =
      [[.name "filterscript.toml"],
        [.name "h", .name ".config", .name "filterscript", .name "config.toml"]] := by
    decide +kernel
  have hsize : ["filterscript.toml", "h/.config/filterscript/config.toml", "h", ".config",
      "filterscript", "config.toml"].map String.utf8ByteSize = [17, 34, 1, 7, 12, 11] := by
    decide +kernel
  have hplaces : [[], ["filterscript.toml"], ["h"], ["h", ".config"],
      ["h", ".config", "filterscript"], ["h", ".config", "filterscript", "config.toml"]].map t.at? =
      [some .folder, none, some .folder, some .folder, some .folder, some (.file [0xff])] := by
    rcases ht with rfl | rfl <;> decide +kernel
  have hworking : t.working = [] := by rcases ht with rfl | rfl <;> decide +kernel
  simp only [List.map_cons, List.map_nil, List.cons.injEq, and_true] at hsteps hsize hplaces
  constructor <;>
    simp [Files.Tree.resolve, Files.Tree.follow, Files.Tree.linkLimit, hsteps, hsize, hplaces,
      hworking]

/-- The place of a program beside whose folder there is one of built-in filters. -/
def installedBeside : Installation := ⟨some "/p/bin/program", "s"⟩

theorem resolve_filters :
    damagedHome.resolve "/p/bin/filters" = .error .notFound ∧
    damagedHome.resolve "/p/filters" = .ok (["p", "filters"], .folder) := by
  have hsteps : ["/p/bin/filters", "/p/filters"].map Files.Path.steps =
      [[.root, .here, .name "p", .name "bin", .name "filters"],
        [.root, .here, .name "p", .name "filters"]] := by
    decide +kernel
  have hsize : ["/p/bin/filters", "/p/filters", "p", "bin", "filters"].map String.utf8ByteSize =
      [14, 10, 1, 3, 7] := by
    decide +kernel
  have hplaces : [[], ["p"], ["p", "bin"], ["p", "filters"]].map damagedHome.at? =
      [some .folder, some .folder, none, some .folder] := by
    decide +kernel
  have hworking : damagedHome.working = [] := by decide +kernel
  simp only [List.map_cons, List.map_nil, List.cons.injEq, and_true] at hsteps hsize hplaces
  constructor <;>
    simp [Files.Tree.resolve, Files.Tree.follow, Files.Tree.linkLimit, hsteps, hsize, hplaces,
      hworking]

theorem offers_installedBeside : installedBeside.Offers damagedHome "/p/filters" := by
  obtain ⟨hbin, hfilters⟩ := resolve_filters
  have hparent : ["/p/bin/program", "/p/bin"].map Files.Path.parent? =
      [some "/p/bin", some "/p"] := by decide +kernel
  have hjoin : ["/p/bin", "/p"].map (Files.Path.join · "filters") =
      ["/p/bin/filters", "/p/filters"] := by decide +kernel
  simp only [List.map_cons, List.map_nil, List.cons.injEq, and_true] at hparent hjoin
  have hnear : installedBeside.Near 1 "/p/filters" :=
    hjoin.2 ▸ .mk rfl hparent.1 (.up hparent.2 .here)
  refine .near (by decide) hnear (by simp [Files.Tree.has, hfilters]) fun j hj nearer hnearer => ?_
  obtain rfl : j = 0 := Nat.lt_one_iff.1 hj
  cases hnearer with
  | mk hprogram hfolder habove =>
    cases hprogram
    cases hparent.1.symm.trans hfolder
    cases habove
    rw [hjoin.1]
    simp [Files.Tree.has, hbin]

/-- The only file in the folder has none of the extensions. -/
theorem not_fits_damagedHome {f : Found} (h : f.folder = "/p/filters") :
    ¬ Library.Fits damagedHome ["fx"] f := by
  rintro ⟨⟨place, content, hplace, hfile⟩, hext⟩
  rw [h, resolve_filters.2] at hplace
  cases hplace
  have hne : ["p", "filters"] ++ [f.name] ≠ [] := List.append_ne_nil_of_right_ne_nil _ (by simp)
  have hmem := List.mem_map_of_mem (f := Prod.fst)
    (((Files.Tree.distinct_build _ _).at?_eq_some hne).1 hfile)
  have hplaces : damagedHome.entries.map Prod.fst = [["h"], ["h", ".config"],
      ["h", ".config", "filterscript"], ["h", ".config", "filterscript", "config.toml"], ["x"],
      ["x", "filterscript"], ["x", "filterscript", "config.toml"], ["p"], ["p", "filters"],
      ["p", "filters", "b.comp"]] := by decide +kernel
  have hname : f.name = "b.comp" := by
    change _ ∈ damagedHome.entries.map Prod.fst at hmem
    rw [hplaces] at hmem
    simpa using hmem
  rw [hname, ← hasExtension_iff] at hext
  exact absurd hext (by decide +kernel)

/-- The standard configuration is used, with the extensions of the command line, whether or not the
next candidate is there. A list searches the built-in filters only, and they have another
extension. -/
theorem configuration_precedence_damaged :
    Config.Located ⟨some "h", some "x"⟩ damagedHome none ["filterscript.toml"]
      (some "h/.config/filterscript/config.toml") ∧
    configuration Config.read? ⟨some "h", some "x"⟩ damagedHome
      { extensions := ["fx"], list := true } = ⟨[], ["fx"]⟩ ∧
    configuration Config.read? ⟨some "h", none⟩ damagedHomeOnly
      { extensions := ["fx"], list := true } = ⟨[], ["fx"]⟩ ∧
    installedBeside.filters damagedHome = "/p/filters" ∧
    (run ⟨⟨some "h", some "x"⟩, installedBeside⟩ damagedHome "off" ["--ext=fx", "--list"]).stdout =
      "No filters found in [\"/p/filters\"]\n" := by
  obtain ⟨hlocal, hhome⟩ := resolve_damagedHome (.inl rfl : damagedHome = _ ∨ _)
  obtain ⟨hlocal', hhome'⟩ := resolve_damagedHome (.inr rfl : _ ∨ damagedHomeOnly = _)
  have hcandidates : [Config.Environment.candidates ⟨some "h", some "x"⟩,
      Config.Environment.candidates ⟨some "h", none⟩] =
      [["filterscript.toml", "h/.config/filterscript/config.toml", "x/filterscript/config.toml"],
        ["filterscript.toml", "h/.config/filterscript/config.toml",
          "h/.config/filterscript/config.toml"]] := by decide +kernel
  simp only [List.cons.injEq, and_true] at hcandidates
  have hlocated : Config.Located ⟨some "h", some "x"⟩ damagedHome none ["filterscript.toml"]
      (some "h/.config/filterscript/config.toml") := by
    refine .found hcandidates.1 ?_ ?_
    · simp [Files.Tree.has, hlocal]
    · simp [Files.Tree.has, hhome]
  have hprovides : Config.Provides Config.read? damagedHome
      (some "h/.config/filterscript/config.toml") Config.standard := by
    refine .unreadable fun text htext => ?_
    have hread : damagedHome.read "h/.config/filterscript/config.toml" = .ok [0xff] := by
      rw [Files.Tree.read, hhome]
      rfl
    have hbytes : [0xff] = Text.bytes (String.ofList text.toList) := by
      rw [String.ofList_toList]
      exact Except.ok.inj (hread.symm.trans htext)
    have hnone : Text.Utf8.decode? [0xff] = none := Text.Utf8.decode?_cons_of_next (by decide)
    cases hnone.symm.trans (Text.Utf8.decode?_eq_some.2 hbytes)
  obtain ⟨-, -, hused, hstandard, hoffers, -, hrun, hlater, -⟩ :=
    configuration_precedence Config.read? ⟨some "h", some "x"⟩ installedBeside damagedHome
      { extensions := ["fx"], list := true }
  obtain ⟨hdirs, hextensions⟩ := hused _ _ _ hlocated hprovides
  rw [hstandard] at hdirs
  have hdamaged : configuration Config.read? ⟨some "h", some "x"⟩ damagedHome
      { extensions := ["fx"], list := true } = ⟨[], ["fx"]⟩ :=
    congrArg₂ Config.mk hdirs hextensions
  have hsame : configuration Config.read? ⟨some "h", none⟩ damagedHomeOnly
      { extensions := ["fx"], list := true } =
      configuration Config.read? ⟨some "h", some "x"⟩ damagedHome
        { extensions := ["fx"], list := true } := by
    refine hlater _ _ _ _ hlocated (fun _ => ?_) ?_
    · rw [hcandidates.2]
      exact ⟨_, rfl⟩
    · simp [hlocal, hlocal', hhome, hhome']
  have hfilters := (hoffers _).1 offers_installedBeside
  obtain ⟨failure, hlisting, -⟩ :=
    hrun ["--ext=fx", "--list"] "off" (by decide +kernel) rfl (Files.Tree.distinct_build _ _)
  rw [hdamaged, hfilters, List.nil_append] at hlisting
  refine ⟨hlocated, hdamaged, hsame.trans hdamaged, hfilters, ?_⟩
  generalize (run _ _ _ _).stdout = output at hlisting ⊢
  cases hlisting with
  | unreadable hfolder hnot =>
    obtain rfl := List.mem_singleton.1 hfolder
    refine absurd (fun place e h => ?_) hnot
    cases resolve_filters.2.symm.trans h
    rfl
  | empty =>
    decide +kernel
  | filters _ hne _ hfits =>
    obtain ⟨f, hf⟩ := List.exists_mem_of_ne_nil _ hne
    obtain ⟨hfolder, hfit⟩ := hfits f hf
    exact absurd hfit (not_fits_damagedHome (List.mem_singleton.1 hfolder))

end Cli

end ShaderFilter
