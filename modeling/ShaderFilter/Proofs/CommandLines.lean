import ShaderFilter.Cli.Run
import ShaderFilter.Proofs.Text.Fields
import Mathlib.Data.List.Basic

/-!
# Command lines

A command line spells items: files, switches, and options with a value (`Spells`). How an item is
spelled and where it stands among the others is not seen in the options, which only collect the items
of each sort in their order (`Asked`). Reading is exact: a command line is read as the options that its
items ask for, and refused if it spells none or they ask for something twice or for an empty path
(`Options.read_eq_ok`).

Options can be asked for at all if no path in them is empty and no extension has a comma
(`Options.exists_read_iff`).
-/

namespace ShaderFilter.Cli

/-! ### Items of a command line -/

/-- The word for a switch. -/
def Switch.name : Switch → String
  | .list => "list"
  | .json => "json"
  | .source => "source"

/-- The word for an option with a value. -/
def Valued.name : Valued → String
  | .config => "config"
  | .dir => "dir"
  | .ext => "ext"
  | .press => "press"

/-- An option with a value has a letter too. -/
inductive Valued.HasLetter : Valued → Char → Prop where
  /-- The configuration file. -/
  | config : HasLetter .config 'c'
  /-- A folder. -/
  | dir : HasLetter .dir 'd'

/-- What a command line consists of. -/
inductive Item where
  /-- A file. -/
  | file (path : String)
  /-- An option without a value. -/
  | switch (s : Switch)
  /-- An option with its value. -/
  | valued (s : Valued) (value : String)

/-- An argument is no option: it does not start with a dash, or it is one dash. -/
def Plain (arg : String) : Prop := arg.toList.head? = some '-' → arg = "-"

/-- An argument is an option together with its value. -/
inductive Attached (s : Valued) (value : String) : String → Prop where
  /-- By the word for the option, with the value behind an equals sign. -/
  | word : Attached s value ("--" ++ s.name ++ "=" ++ value)
  /-- By the letter, with the value right behind it. -/
  | letter {c : Char} : s.HasLetter c → value ≠ "" → value.toList.head? ≠ some '=' →
      Attached s value (String.ofList ('-' :: c :: value.toList))
  /-- By the letter, with the value behind an equals sign. -/
  | letterEquals {c : Char} : s.HasLetter c →
      Attached s value (String.ofList ('-' :: c :: '=' :: value.toList))

/-- An argument is an option whose value is the argument behind it. -/
inductive Apart (s : Valued) : String → Prop where
  /-- By the word for the option. -/
  | word : Apart s ("--" ++ s.name)
  /-- By the letter. -/
  | letter {c : Char} : s.HasLetter c → Apart s (String.ofList ['-', c])

/-- Arguments spell items. -/
inductive Spells : List String → List Item → Prop where
  /-- No arguments. -/
  | nil : Spells [] []
  /-- Behind two dashes there are files only. -/
  | rest {files : List String} : Spells ("--" :: files) (files.map .file)
  /-- A file. -/
  | file {arg : String} {args : List String} {items : List Item} : Plain arg → Spells args items →
      Spells (arg :: args) (.file arg :: items)
  /-- A switch. -/
  | switch {s : Switch} {args : List String} {items : List Item} : Spells args items →
      Spells (("--" ++ s.name) :: args) (.switch s :: items)
  /-- An option with its value. -/
  | attached {s : Valued} {value arg : String} {args : List String} {items : List Item} :
      Attached s value arg → Spells args items → Spells (arg :: args) (.valued s value :: items)
  /-- An option with its value behind it. -/
  | apart {s : Valued} {value arg : String} {args : List String} {items : List Item} :
      Apart s arg → Plain value → Spells args items →
      Spells (arg :: value :: args) (.valued s value :: items)

namespace Item

/-- The path of a file. -/
def file? : Item → Option String
  | .file path => some path
  | _ => none

/-- The value of an option. -/
def value? (s : Valued) : Item → Option String
  | .valued s' value => if s' = s then some value else none
  | _ => none

/-- Whether an item is a switch. -/
def isSwitch (s : Switch) : Item → Bool
  | .switch s' => s' = s
  | _ => false

/-- The path in an item. -/
def path? : Item → Option String
  | .file path => some path
  | .valued .config path => some path
  | .valued .dir path => some path
  | .valued .ext _ | .valued .press _ | .switch _ => none

end Item

/-- Options have what other options have, and then what items ask for: all values of an option in
their order, and no empty path. -/
@[mk_iff]
structure Asked (o : Options) (items : List Item) (o' : Options) : Prop where
  /-- No path is empty. -/
  paths : ∀ item ∈ items, item.path? ≠ some ""
  /-- The files. -/
  files : o'.files = o.files ++ items.filterMap Item.file?
  /-- The configuration file, given at most once. -/
  config : o'.config.toList = o.config.toList ++ items.filterMap (Item.value? .config)
  /-- The folders. -/
  dirs : o'.dirs = o.dirs ++ items.filterMap (Item.value? .dir)
  /-- The extensions, several of them separated by commas. -/
  extensions : o'.extensions = o.extensions ++ (items.filterMap (Item.value? .ext)).flatMap
    fun value => (value.toList.splitOn ',').map String.ofList
  /-- The words for keys. -/
  press : o'.press = o.press ++ items.filterMap (Item.value? .press)
  /-- Each switch is given once or not at all. -/
  list : o'.list.toNat = o.list.toNat + items.countP (Item.isSwitch .list)
  /-- Likewise. -/
  json : o'.json.toNat = o.json.toNat + items.countP (Item.isSwitch .json)
  /-- Likewise. -/
  source : o'.source.toNat = o.source.toNat + items.countP (Item.isSwitch .source)

/-! ### Reading one argument -/

/-- What is found in a table stands in it. -/
theorem mem_of_lookup {α β : Type} [BEq α] [LawfulBEq α] {table : List (α × β)} {a : α} {b : β}
    (h : table.lookup a = some b) : (a, b) ∈ table := by
  obtain ⟨front, back, rfl, -⟩ := List.lookup_eq_some_iff.1 h
  simp

theorem long?_eq_some {name : String} {x : Switch ⊕ Valued} :
    long? name = some x ↔ name = x.elim Switch.name Valued.name := by
  constructor
  · intro h
    have hmem := mem_of_lookup h
    simp only [List.mem_cons, Prod.mk.injEq, List.not_mem_nil, or_false] at hmem
    rcases hmem with ⟨rfl, rfl⟩ | ⟨rfl, rfl⟩ | ⟨rfl, rfl⟩ | ⟨rfl, rfl⟩ | ⟨rfl, rfl⟩ | ⟨rfl, rfl⟩ |
      ⟨rfl, rfl⟩ <;> rfl
  · rintro rfl
    rcases x with s | s <;> cases s <;> rfl

theorem short?_eq_some {c : Char} {s : Valued} : short? c = some s ↔ s.HasLetter c := by
  constructor
  · intro h
    have hmem := mem_of_lookup h
    simp only [List.mem_cons, Prod.mk.injEq, List.not_mem_nil, or_false] at hmem
    rcases hmem with ⟨rfl, rfl⟩ | ⟨rfl, rfl⟩
    · exact .config
    · exact .dir
  · rintro (_ | _) <;> rfl

/-- The words for options have no equals sign. -/
theorem not_mem_name (x : Switch ⊕ Valued) : '=' ∉ (x.elim Switch.name Valued.name).toList := by
  rcases x with s | s <;> cases s <;> decide

theorem plain_iff {arg : String} : Plain arg ↔ ∀ c cs, arg.toList ≠ '-' :: c :: cs := by
  rw [Plain, ← String.toList_inj]
  cases arg.toList with
  | nil => simp
  | cons d ds =>
    cases ds with
    | nil => simp
    | cons e es => simp

theorem isValue_iff {arg : String} : isValue arg ↔ Plain arg := by
  rw [plain_iff, isValue]
  split <;> simp_all

/-- What an argument is. -/
inductive Says (arg : String) : Argument → Prop where
  /-- A file. -/
  | file : Plain arg → Says arg .file
  /-- Two dashes. -/
  | endOfOptions : arg = "--" → Says arg .endOfOptions
  /-- A switch. -/
  | switch {s : Switch} : arg = "--" ++ s.name → Says arg (.switch s)
  /-- An option with its value. -/
  | attached {s : Valued} {value : String} : Attached s value arg → Says arg (.valued s (some value))
  /-- An option whose value comes behind. -/
  | apart {s : Valued} : Apart s arg → Says arg (.valued s none)

theorem dropEquals_of_head? {cs : List Char} (h : cs.head? ≠ some '=') : dropEquals cs = cs := by
  unfold dropEquals
  split
  · exact absurd rfl h
  · rfl

theorem read_attached {s : Valued} {value arg : String} (h : Attached s value arg) :
    Argument.read arg = .ok (.valued s (some value)) := by
  cases h with
  | word =>
    have hcut : ∀ w : List Char, '=' ∉ w →
        (w ++ '=' :: value.toList).takeWhile (· != '=') = w ∧
          (w ++ '=' :: value.toList).dropWhile (· != '=') = '=' :: value.toList := by
      intro w hw
      have hall : ∀ c ∈ w, (c != '=') = true := fun c hc => bne_iff_ne.2 fun h => hw (h ▸ hc)
      rw [List.takeWhile_append_of_pos hall, List.dropWhile_append_of_pos hall]
      simp
    obtain ⟨htake, hdrop⟩ := hcut s.name.toList (not_mem_name (.inr s))
    have hlong : long? s.name = some (.inr s) := long?_eq_some.2 rfl
    have hlist : ("--" ++ s.name ++ "=" ++ value).toList =
        '-' :: '-' :: (s.name.toList ++ '=' :: value.toList) := by
      simp [String.toList_append]
    simp [Argument.read, hlist, htake, hdrop, hlong, dropEquals]
  | letter hletter hne hhead =>
    have hvalue : value.toList ≠ [] := fun h => hne (String.toList_eq_nil_iff.1 h)
    cases hletter <;>
      simp [Argument.read, short?, List.lookup_cons, hvalue, dropEquals_of_head? hhead]
  | letterEquals hletter => cases hletter <;> simp [Argument.read, short?, List.lookup_cons, dropEquals]

/-- Behind the word for an option stands nothing, or an equals sign with the value behind it. -/
theorem word_of_long? {arg : String} {cs : List Char} {x : Switch ⊕ Valued}
    (harg : arg.toList = '-' :: '-' :: cs)
    (hlong : long? (String.ofList (cs.takeWhile (· != '='))) = some x) :
    (arg = "--" ++ x.elim Switch.name Valued.name ∧ cs.dropWhile (· != '=') = []) ∨
      ∃ value, arg = "--" ++ x.elim Switch.name Valued.name ++ "=" ++ String.ofList value ∧
        cs.dropWhile (· != '=') = '=' :: value := by
  have happend := List.takeWhile_append_dropWhile (p := (· != '=')) (l := cs)
  rw [← String.toList_ofList (l := cs.takeWhile (· != '=')), long?_eq_some.1 hlong] at happend
  simp only [← String.toList_inj, harg, String.toList_append]
  cases hdrop : cs.dropWhile (· != '=') with
  | nil =>
    rw [hdrop, List.append_nil] at happend
    exact .inl ⟨by simp [happend], rfl⟩
  | cons c value =>
    obtain rfl : c = '=' := by
      have hhead := List.head?_dropWhile_not (· != '=') cs
      simpa [hdrop] using hhead
    rw [hdrop] at happend
    exact .inr ⟨value, by simp [← happend], rfl⟩

/-- What stands behind the letter for an option is its value, less an equals sign in front. -/
theorem attached_of_letter {s : Valued} {c : Char} {cs : List Char} (hs : s.HasLetter c)
    (hcs : cs ≠ []) :
    Attached s (String.ofList (dropEquals cs)) (String.ofList ('-' :: c :: cs)) := by
  cases cs with
  | nil => exact absurd rfl hcs
  | cons d ds =>
    by_cases hd : d = '='
    · subst hd
      simpa [dropEquals] using @Attached.letterEquals s (String.ofList ds) c hs
    · rw [dropEquals_of_head? (by simpa using hd)]
      simpa [hd] using @Attached.letter s (String.ofList (d :: ds)) c hs

theorem says_of_read {arg : String} {a : Argument} (h : Argument.read arg = .ok a) : Says arg a := by
  rw [Argument.read] at h
  split at h
  · rename_i harg
    cases h
    exact .endOfOptions (String.toList_inj.1 harg)
  · rename_i cs _ harg
    cases hlong : long? (String.ofList (cs.takeWhile (· != '='))) with
    | none => simp [hlong] at h
    | some x =>
      simp only [hlong] at h
      obtain ⟨rfl, hdrop⟩ | ⟨value, rfl, hdrop⟩ := word_of_long? harg hlong
      · rcases x with s | s <;> rw [hdrop] at h <;> cases h
        · exact .switch rfl
        · exact .apart .word
      · rcases x with s | s <;> rw [hdrop] at h <;> cases h
        exact .attached .word
  · rename_i c cs _ _ harg
    obtain rfl : String.ofList ('-' :: c :: cs) = arg := by rw [← harg, String.ofList_toList]
    cases hletter : short? c with
    | none => simp [hletter] at h
    | some s =>
      rw [hletter] at h
      cases h
      have hs := short?_eq_some.1 hletter
      split
      · rename_i hcs
        subst hcs
        exact .apart (.letter hs)
      · rename_i hcs
        exact .attached (attached_of_letter hs hcs)
  · rename_i hnone
    cases h
    exact .file (plain_iff.2 hnone)

theorem read_of_says {arg : String} {a : Argument} (h : Says arg a) : Argument.read arg = .ok a := by
  cases h with
  | file hplain =>
    rw [plain_iff] at hplain
    rw [Argument.read]
    split
    · rename_i harg
      exact absurd harg (hplain _ _)
    · rename_i harg
      exact absurd harg (hplain _ _)
    · rename_i harg
      exact absurd harg (hplain _ _)
    · rfl
  | endOfOptions harg =>
    subst harg
    rfl
  | @switch s harg =>
    subst harg
    cases s <;> rfl
  | attached hattached => exact read_attached hattached
  | @apart s hapart =>
    cases hapart with
    | word => cases s <;> rfl
    | letter hletter => cases hletter <;> rfl

/-- One argument is read as what it is. -/
theorem Argument.read_eq_ok {arg : String} {a : Argument} : Argument.read arg = .ok a ↔ Says arg a :=
  ⟨says_of_read, read_of_says⟩

/-! ### Collecting items -/

/-- An item is taken in. -/
inductive Adds (o : Options) : Item → Options → Prop where
  /-- A file. -/
  | file {path : String} : path ≠ "" → Adds o (.file path) { o with files := o.files ++ [path] }
  /-- A switch that was off. -/
  | list : o.list = false → Adds o (.switch .list) { o with list := true }
  /-- Likewise. -/
  | json : o.json = false → Adds o (.switch .json) { o with json := true }
  /-- Likewise. -/
  | source : o.source = false → Adds o (.switch .source) { o with source := true }
  /-- The configuration file, if there was none. -/
  | config {path : String} : o.config = none → path ≠ "" →
      Adds o (.valued .config path) { o with config := some path }
  /-- A folder. -/
  | dir {path : String} : path ≠ "" → Adds o (.valued .dir path) { o with dirs := o.dirs ++ [path] }
  /-- Extensions. -/
  | ext {value : String} : Adds o (.valued .ext value)
      { o with extensions := o.extensions ++ (value.toList.splitOn ',').map String.ofList }
  /-- A key. -/
  | press {word : String} : Adds o (.valued .press word) { o with press := o.press ++ [word] }

theorem addFile_eq_ok {o o' : Options} {path : String} :
    o.addFile path = .ok o' ↔ Adds o (.file path) o' := by
  rw [Options.addFile]
  constructor
  · intro h
    split at h
    · cases h
    · cases h
      exact .file ‹_›
  · rintro ⟨h⟩
    rw [if_neg h]

theorem addSwitch_eq_ok {o o' : Options} {arg : String} {s : Switch} :
    o.addSwitch arg s = .ok o' ↔ Adds o (.switch s) o' := by
  constructor
  · intro h
    cases s <;> simp only [Options.addSwitch] at h <;> split at h <;> cases h
    · exact .list (Bool.eq_false_iff.2 ‹_›)
    · exact .json (Bool.eq_false_iff.2 ‹_›)
    · exact .source (Bool.eq_false_iff.2 ‹_›)
  · rintro (_ | h | h | h) <;> simp [Options.addSwitch, h]

theorem addValued_eq_ok {o o' : Options} {arg value : String} {s : Valued} :
    o.addValued arg value s = .ok o' ↔ Adds o (.valued s value) o' := by
  constructor
  · intro h
    cases s <;> simp only [Options.addValued] at h
    · split at h
      · cases h
      · split at h <;> cases h
        exact .config (Option.not_isSome_iff_eq_none.1 ‹_›) ‹_›
    · split at h <;> cases h
      exact .dir ‹_›
    · cases h
      rw [Text.pieces_eq_splitOn]
      exact .ext
    · cases h
      exact .press
  · intro h
    cases h with
    | config hnone hne => simp [Options.addValued, hnone, hne]
    | dir hne => simp [Options.addValued, hne]
    | ext => simp [Options.addValued, Text.pieces_eq_splitOn]
    | press => rfl

/-- Items are taken in one after the other. -/
inductive Collects : Options → List Item → Options → Prop where
  /-- No items. -/
  | nil {o : Options} : Collects o [] o
  /-- One item before others. -/
  | cons {o o' o'' : Options} {item : Item} {items : List Item} :
      Adds o item o' → Collects o' items o'' → Collects o (item :: items) o''

theorem collects_cons_iff {o o'' : Options} {item : Item} {items : List Item} :
    Collects o (item :: items) o'' ↔ ∃ o', Adds o item o' ∧ Collects o' items o'' :=
  ⟨fun | .cons ha hc => ⟨_, ha, hc⟩, fun ⟨_, ha, hc⟩ => .cons ha hc⟩

/-- Files are taken in one after the other. -/
theorem foldlM_addFile_eq_ok {files : List String} {o o' : Options} :
    files.foldlM Options.addFile o = .ok o' ↔ Collects o (files.map .file) o' := by
  induction files generalizing o with
  | nil =>
    constructor
    · intro h
      cases h
      exact .nil
    · rintro ⟨⟩
      rfl
  | cons file files ih =>
    rw [List.foldlM_cons, bind_eq_ok, List.map_cons, collects_cons_iff]
    simp only [addFile_eq_ok, ih]

/-- An item is taken in before the arguments behind it. -/
theorem bind_addAll_eq_ok {args : List String} {o o'' : Options} {item : Item}
    {x : Except UsageError Options} (hx : ∀ {o'}, x = .ok o' ↔ Adds o item o')
    (hargs : ∀ {o' : Options}, o'.addAll args = .ok o'' ↔
      ∃ items, Spells args items ∧ Collects o' items o'') :
    (x >>= fun o' => o'.addAll args) = .ok o'' ↔
      ∃ items, Spells args items ∧ Collects o (item :: items) o'' := by
  simp only [bind_eq_ok, hx, hargs, collects_cons_iff]
  constructor
  · rintro ⟨o', hadd, items, hspells, hrest⟩
    exact ⟨items, hspells, o', hadd, hrest⟩
  · rintro ⟨items, hspells, o', hadd, hrest⟩
    exact ⟨o', hadd, items, hspells, hrest⟩

/-- Arguments are taken in if they spell items that are. -/
theorem addAll_eq_ok (args : List String) {o o' : Options} :
    o.addAll args = .ok o' ↔ ∃ items, Spells args items ∧ Collects o items o' := by
  match args with
  | [] =>
    rw [Options.addAll]
    constructor
    · intro h
      cases h
      exact ⟨[], .nil, .nil⟩
    · rintro ⟨_, ⟨⟩, ⟨⟩⟩
      rfl
  | arg :: args =>
    rw [Options.addAll, bind_eq_ok]
    constructor
    · rintro ⟨a, ha, h⟩
      cases Argument.read_eq_ok.1 ha with
      | file hplain =>
        obtain ⟨items, hspells, hcollects⟩ := (bind_addAll_eq_ok addFile_eq_ok (addAll_eq_ok args)).1 h
        exact ⟨_, .file hplain hspells, hcollects⟩
      | endOfOptions harg =>
        subst harg
        exact ⟨_, .rest, foldlM_addFile_eq_ok.1 h⟩
      | switch harg =>
        subst harg
        obtain ⟨items, hspells, hcollects⟩ := (bind_addAll_eq_ok addSwitch_eq_ok (addAll_eq_ok args)).1 h
        exact ⟨_, .switch hspells, hcollects⟩
      | attached hattached =>
        obtain ⟨items, hspells, hcollects⟩ := (bind_addAll_eq_ok addValued_eq_ok (addAll_eq_ok args)).1 h
        exact ⟨_, .attached hattached hspells, hcollects⟩
      | apart hapart =>
        match args, h with
        | [], h => cases h
        | value :: rest, h =>
          dsimp only at h
          split at h
          · rename_i hvalue
            obtain ⟨items, hspells, hcollects⟩ :=
              (bind_addAll_eq_ok addValued_eq_ok (addAll_eq_ok rest)).1 h
            exact ⟨_, .apart hapart (isValue_iff.1 hvalue) hspells, hcollects⟩
          · cases h
    · rintro ⟨items, hspells, hcollects⟩
      cases hspells with
      | rest => exact ⟨_, Argument.read_eq_ok.2 (.endOfOptions rfl), foldlM_addFile_eq_ok.2 hcollects⟩
      | file hplain hspells =>
        exact ⟨_, Argument.read_eq_ok.2 (.file hplain),
          (bind_addAll_eq_ok addFile_eq_ok (addAll_eq_ok args)).2 ⟨_, hspells, hcollects⟩⟩
      | switch hspells =>
        exact ⟨_, Argument.read_eq_ok.2 (.switch rfl),
          (bind_addAll_eq_ok addSwitch_eq_ok (addAll_eq_ok args)).2 ⟨_, hspells, hcollects⟩⟩
      | attached hattached hspells =>
        exact ⟨_, Argument.read_eq_ok.2 (.attached hattached),
          (bind_addAll_eq_ok addValued_eq_ok (addAll_eq_ok args)).2 ⟨_, hspells, hcollects⟩⟩
      | @apart s value _ rest _ hapart hplain hspells =>
        refine ⟨_, Argument.read_eq_ok.2 (.apart hapart), ?_⟩
        dsimp only
        rw [if_pos (isValue_iff.2 hplain)]
        exact (bind_addAll_eq_ok addValued_eq_ok (addAll_eq_ok rest)).2 ⟨_, hspells, hcollects⟩

/-- A switch that is given was off before. -/
theorem eq_false_of_toNat {b b' : Bool} {n : Nat} (h : b'.toNat = b.toNat + (n + 1)) : b = false := by
  have hle := b'.toNat_le
  exact Bool.toNat_eq_zero.1 (by omega)

/-- What is asked for can be taken in. -/
theorem Asked.exists_adds {o o' : Options} {item : Item} {items : List Item}
    (h : Asked o (item :: items) o') : ∃ o₁, Adds o item o₁ := by
  have hpath := h.paths item List.mem_cons_self
  match item with
  | .file path => exact ⟨_, .file (by simpa [Item.path?] using hpath)⟩
  | .switch .list => exact ⟨_, .list (eq_false_of_toNat (by simpa [Item.isSwitch] using h.list))⟩
  | .switch .json => exact ⟨_, .json (eq_false_of_toNat (by simpa [Item.isSwitch] using h.json))⟩
  | .switch .source =>
    exact ⟨_, .source (eq_false_of_toNat (by simpa [Item.isSwitch] using h.source))⟩
  | .valued .config path =>
    have hlength := congrArg List.length h.config
    rw [List.length_append, List.filterMap_cons, Item.value?, if_pos rfl, List.length_cons] at hlength
    have hle := o'.config.length_toList_le
    have hnone : o.config = none :=
      Option.toList_eq_nil_iff.1 (List.eq_nil_of_length_eq_zero (by omega))
    exact ⟨_, .config hnone (by simpa [Item.path?] using hpath)⟩
  | .valued .dir path => exact ⟨_, .dir (by simpa [Item.path?] using hpath)⟩
  | .valued .ext value => exact ⟨_, .ext⟩
  | .valued .press word => exact ⟨_, .press⟩

/-- An item that is taken in need not be asked for any more. -/
theorem Adds.asked_iff {o o₁ o' : Options} {item : Item} {items : List Item} (h : Adds o item o₁) :
    Asked o (item :: items) o' ↔ Asked o₁ items o' := by
  cases h <;> simp_all +arith [Cli.asked_iff, List.filterMap_cons, Item.path?, Item.file?,
    Item.value?, Item.isSwitch]

theorem toNat_inj {b b' : Bool} : b'.toNat = b.toNat ↔ b' = b := by
  cases b <;> cases b' <;> decide

/-- If nothing is asked for, nothing changes. -/
theorem asked_nil_iff {o o' : Options} : Asked o [] o' ↔ o' = o := by
  have hconfig : o'.config.toList = o.config.toList ↔ o'.config = o.config := by
    cases o.config <;> cases o'.config <;> simp
  cases o
  cases o'
  simp only [asked_iff, hconfig, toNat_inj, List.filterMap_nil, List.not_mem_nil,
    List.append_nil, List.flatMap_nil, List.countP_nil, Nat.add_zero, Options.mk.injEq]
  tauto

/-- The items that options collect are those that they ask for. -/
theorem collects_iff_asked {o o' : Options} {items : List Item} :
    Collects o items o' ↔ Asked o items o' := by
  induction items generalizing o with
  | nil =>
    rw [asked_nil_iff]
    exact ⟨fun | .nil => rfl, fun | rfl => .nil⟩
  | cons item items ih =>
    rw [collects_cons_iff]
    constructor
    · rintro ⟨o₁, hadds, h⟩
      exact hadds.asked_iff.2 (ih.1 h)
    · intro h
      obtain ⟨o₁, hadds⟩ := h.exists_adds
      exact ⟨o₁, hadds, ih.2 (hadds.asked_iff.1 h)⟩

/-- **Reading is exact.** A command line is read as the options that the items it spells ask for; it is
refused if it spells no items, or items that ask for something that cannot be had. -/
theorem Options.read_eq_ok {args : List String} {o : Options} :
    Options.read args = .ok o ↔ ∃ items, Spells args items ∧ Asked {} items o := by
  simp only [Options.read, addAll_eq_ok, collects_iff_asked]

/-! ### Writing options -/

/-- The argument for an item. -/
def Item.word : Item → String
  | .file path => path
  | .switch s => "--" ++ s.name
  | .valued s value => "--" ++ s.name ++ "=" ++ value

namespace Options

/-- The items before the files. -/
def settings (o : Options) : List Item :=
  List.replicate o.list.toNat (.switch .list) ++ List.replicate o.json.toNat (.switch .json) ++
    List.replicate o.source.toNat (.switch .source) ++ o.config.toList.map (.valued .config) ++
    o.dirs.map (.valued .dir) ++ o.extensions.map (.valued .ext) ++ o.press.map (.valued .press)

/-- A command line for options: each value behind an equals sign, and the files behind two dashes. -/
def commandLine (o : Options) : List String := o.settings.map Item.word ++ "--" :: o.files

/-- Options can be asked for. -/
structure Expressible (o : Options) : Prop where
  /-- No file has an empty path. -/
  files : ∀ path ∈ o.files, path ≠ ""
  /-- Nor has the configuration file. -/
  config : ∀ path, o.config = some path → path ≠ ""
  /-- Nor has a folder. -/
  dirs : ∀ path ∈ o.dirs, path ≠ ""
  /-- Commas separate extensions. -/
  extensions : ∀ extension ∈ o.extensions, ',' ∉ extension.toList

end Options

theorem spells_words {items : List Item} (h : ∀ item ∈ items, item.file? = none) (files : List String) :
    Spells (items.map Item.word ++ "--" :: files) (items ++ files.map .file) := by
  induction items with
  | nil => exact .rest
  | cons item items ih =>
    obtain ⟨hitem, hitems⟩ := List.forall_mem_cons.1 h
    match item with
    | .switch s => exact .switch (ih hitems)
    | .valued s value => exact .attached .word (ih hitems)

theorem file?_of_mem_settings {o : Options} {item : Item} (h : item ∈ o.settings) :
    item.file? = none := by
  match item with
  | .file path => simp [Options.settings, List.mem_append] at h
  | .switch s => rfl
  | .valued s value => rfl

/-- The pieces of an extension without a comma are this extension. -/
theorem pieces_of_not_mem {extension : String} (h : ',' ∉ extension.toList) :
    (extension.toList.splitOn ',').map String.ofList = [extension] := by
  rw [List.splitOn_eq_singleton h, List.map_singleton, String.ofList_toList]

/-- Options ask for what they are. -/
theorem asked_settings {o : Options} (h : o.Expressible) :
    Asked {} (o.settings ++ o.files.map .file) o := by
  have hextensions : o.extensions.flatMap (fun extension =>
      (extension.toList.splitOn ',').map String.ofList) = o.extensions := by
    rw [List.flatMap_congr fun extension hmem => pieces_of_not_mem (h.extensions extension hmem)]
    simp
  obtain ⟨hfiles, hconfig, hdirs, -⟩ := h
  simp_all [asked_iff, Options.settings, List.filterMap_replicate, List.countP_replicate,
    Function.comp_def, Item.path?, Item.file?, Item.value?, Item.isSwitch, or_imp, forall_and]

/-- A command line for options is read as these options. -/
theorem Options.read_commandLine {o : Options} (h : o.Expressible) :
    Options.read o.commandLine = .ok o :=
  Options.read_eq_ok.2 ⟨_, spells_words (fun _ => file?_of_mem_settings) _, asked_settings h⟩

/-- What is asked for can be expressed. -/
theorem Asked.expressible {items : List Item} {o : Options} (h : Asked {} items o) :
    o.Expressible := by
  have hvalue {s : Valued} (hs : ∀ path, (Item.valued s path).path? = some path) {path : String}
      (hmem : path ∈ items.filterMap (Item.value? s)) : path ≠ "" := by
    obtain ⟨item, hitem, hpath⟩ := List.mem_filterMap.1 hmem
    match item with
    | .valued s' value =>
      obtain ⟨rfl, rfl⟩ : s' = s ∧ value = path := by simpa [Item.value?] using hpath
      rintro rfl
      exact h.paths _ hitem (hs _)
  constructor
  · intro path hmem
    rw [h.files, List.nil_append] at hmem
    obtain ⟨item, hitem, hpath⟩ := List.mem_filterMap.1 hmem
    match item with
    | .file path' =>
      cases hpath
      rintro rfl
      exact h.paths _ hitem rfl
  · intro path hpath
    refine hvalue (s := .config) (fun _ => rfl) ?_
    have hconfig := h.config
    rw [hpath, Option.toList_some, Option.toList_none, List.nil_append] at hconfig
    exact hconfig ▸ List.mem_singleton_self path
  · intro path hmem
    rw [h.dirs, List.nil_append] at hmem
    exact hvalue (fun _ => rfl) hmem
  · intro extension hmem
    rw [h.extensions, List.nil_append] at hmem
    obtain ⟨value, -, hpiece⟩ := List.mem_flatMap.1 hmem
    obtain ⟨cs, hcs, rfl⟩ := List.mem_map.1 hpiece
    rw [← Text.pieces_eq_splitOn] at hcs
    rw [String.toList_ofList]
    exact Text.not_mem_of_mem_pieces hcs

/-- **What can be asked for.** Options are those of a command line if no path in them is empty and
no extension has a comma. -/
theorem Options.exists_read_iff {o : Options} :
    (∃ args, Options.read args = .ok o) ↔ o.Expressible := by
  constructor
  · rintro ⟨args, h⟩
    obtain ⟨items, -, hasked⟩ := Options.read_eq_ok.1 h
    exact hasked.expressible
  · intro h
    exact ⟨_, read_commandLine h⟩

/-! ### What a run leaves behind -/

section

variable {args : List String} {o : Options} (h : Options.read args = .ok o)

include h

/-- A run is the outcome of its options, after complaints about the filter of the log. -/
theorem run_of_read (env : Environment) (t : Files.Tree) (log : String) :
    run env t log args =
      ((transcript env t o).outcome (Log.Filter.read log).2).after (Log.Filter.read log).1 := by
  unfold run
  rw [h]

/-- The output of a run is that of its transcript. -/
theorem stdout_of_read (env : Environment) (t : Files.Tree) (log : String) :
    (run env t log args).stdout = (transcript env t o).output := by
  rw [run_of_read h, Outcome.after, Transcript.outcome]
  split <;> rfl

/-- A run ends well, or with the message of its error. -/
theorem ending_of_read (env : Environment) (t : Files.Tree) (log : String) :
    ((transcript env t o).failure = none → (run env t log args).exit = 0) ∧
    ∀ message, (transcript env t o).failure = some message → (run env t log args).exit = 1 ∧
      ∃ earlier, (run env t log args).stderr = earlier ++ line ("Error: " ++ message) := by
  rw [run_of_read h]
  constructor
  · intro hnone
    simp only [Outcome.after, Transcript.outcome, hnone]
  · intro message hsome
    simp only [Outcome.after, Transcript.outcome, hsome, true_and]
    exact ⟨_, String.append_assoc.symm⟩

end

end ShaderFilter.Cli
