import ShaderFilter.Cli.Run
import ShaderFilter.Proofs.Discovery
import ShaderFilter.Proofs.Files.Paths
import Mathlib.Data.List.Forall2

/-!
# Lists of filters

A list of filters has a line for each file that is found in some folders (`Entry`), and the files that
are found are those that are there (`Library.list_spec`). What is written, and how the run ends, is
said by `Listing`, without the search.

The last folder of a list is that of the built-in filters. It is found from the place of the program
(`Installation.Offers`): the nearest folder at or above the program's own that holds one, at most
two folders above it, or else the folder of the sources.
-/

namespace ShaderFilter

open Files (Tree Path.Above Path.join Path.parent?)

/-! ### The built-in filters -/

namespace Installation

variable {i : Installation} {t : Tree} {path : String}

/-- A folder of built-in filters would be at a path near the program, `k` folders above. -/
inductive Near (i : Installation) (k : Nat) : String → Prop where
  /-- In the folder of the program, or in a folder above it. -/
  | mk {program folder above : String} : i.program = some program →
      Path.parent? program = some folder → Path.Above k folder above →
      Near i k (Path.join above "filters")

/-- The built-in filters are in the folder at a path. -/
inductive Offers (i : Installation) (t : Tree) : String → Prop where
  /-- The folder is near the program, and none is nearer. -/
  | near {k : Nat} {path : String} : k < 3 → i.Near k path → t.has path →
      (∀ j < k, ∀ nearer, i.Near j nearer → ¬ t.has nearer) → Offers i t path
  /-- No folder is near the program. -/
  | sources : (∀ k < 3, ∀ path, i.Near k path → ¬ t.has path) →
      Offers i t (Path.join i.sources "filters")

theorem getElem?_near {k : Nat} : i.near[k]? = some path ↔ k < 3 ∧ i.Near k path := by
  simp only [near, List.getElem?_map, Option.map_eq_some_iff]
  constructor
  · rintro ⟨above, habove, rfl⟩
    cases hfolder : i.program.bind Path.parent? with
    | none => simp [hfolder] at habove
    | some folder =>
      obtain ⟨program, hprogram, hparent⟩ := Option.bind_eq_some_iff.1 hfolder
      rw [hfolder, Option.toList_some, List.flatMap_singleton, Files.Path.getElem?_upwards] at habove
      exact ⟨habove.1, .mk hprogram hparent habove.2⟩
  · rintro ⟨hk, hprogram, hparent, habove⟩
    refine ⟨_, ?_, rfl⟩
    rw [hprogram, Option.bind_some, hparent, Option.toList_some, List.flatMap_singleton,
      Files.Path.getElem?_upwards]
    exact ⟨hk, habove⟩

theorem mem_near : path ∈ i.near ↔ ∃ k < 3, i.Near k path := by
  simp only [List.mem_iff_getElem?, getElem?_near]

theorem Offers.filters (h : i.Offers t path) : i.filters t = path := by
  cases h with
  | near hk hnear hpath hnone =>
    obtain ⟨hlength, hget⟩ := List.getElem?_eq_some_iff.1 (getElem?_near.2 ⟨hk, hnear⟩)
    have hfind : i.near.find? t.has = some path := by
      refine List.find?_eq_some_iff_getElem.2 ⟨hpath, _, hlength, hget, fun j hj => ?_⟩
      have hnearer := getElem?_near.1 (List.getElem?_eq_getElem (Nat.lt_trans hj hlength))
      simpa using hnone j hj _ hnearer.2
    rw [Installation.filters, hfind, Option.getD_some]
  | sources hnone =>
    have hfind : i.near.find? t.has = none := by
      refine List.find?_eq_none.2 fun path hpath => ?_
      obtain ⟨k, hk, hnear⟩ := mem_near.1 hpath
      exact hnone k hk path hnear
    rw [Installation.filters, hfind, Option.getD_none, own]

/-- The folder of the built-in filters is the one where they are offered. -/
theorem offers_iff : i.Offers t path ↔ i.filters t = path := by
  refine ⟨Offers.filters, ?_⟩
  rintro rfl
  rw [Installation.filters]
  cases hfind : i.near.find? t.has with
  | some path =>
    obtain ⟨hpath, k, hlength, hget, hnone⟩ := List.find?_eq_some_iff_getElem.1 hfind
    obtain ⟨hk, hnear⟩ := getElem?_near.1 (List.getElem?_eq_some_iff.2 ⟨hlength, hget⟩)
    refine .near hk hnear hpath fun j hj nearer hnearer => ?_
    obtain ⟨hj', hget'⟩ := List.getElem?_eq_some_iff.1 (getElem?_near.2 ⟨Nat.lt_trans hj hk, hnearer⟩)
    simpa [hget'] using hnone j hj
  | none =>
    refine .sources fun k hk path hnear => ?_
    exact List.find?_eq_none.1 hfind path (mem_near.2 ⟨k, hk, hnear⟩)

end Installation

/-! ### What is listed -/

namespace Library

variable {t : Tree} {folders extensions : List String}

/-- Only what is no folder cannot be searched. -/
theorem searchAll_eq_error {e : Files.OsError}
    (h : (searchAll t extensions folders).result = .error e) : e = .notAFolder := by
  induction folders with
  | nil => cases h
  | cons folder folders ih =>
    simp only [searchAll, search, Logged.result_bind, Logged.result_pure] at h
    cases hnames : (names t folder).result with
    | error e' =>
      rw [hnames] at h
      cases h
      exact names_eq_error hnames
    | ok ns =>
      rw [hnames, ok_bind] at h
      cases hothers : (searchAll t extensions folders).result with
      | error e' =>
        rw [hothers] at h
        cases h
        exact ih hothers
      | ok others =>
        rw [hothers] at h
        cases h

theorem list_eq_error {e : Files.OsError} (h : (list t folders extensions).result = .error e) :
    e = .notAFolder := by
  simp only [list, Logged.result_bind, Logged.result_pure] at h
  cases hraw : (searchAll t extensions folders).result with
  | error e' =>
    rw [hraw] at h
    cases h
    exact searchAll_eq_error hraw
  | ok raw =>
    rw [hraw] at h
    cases h

end Library

namespace Cli

open Library (Readable Fits)

variable {t : Tree} {folders extensions : List String}

/-- The line about a found file: the name and the description of its filter, or the path and the reason
why it cannot be loaded. -/
inductive Entry (t : Tree) (f : Found) : String → Prop where
  /-- The file is a filter. -/
  | filter {d : Definition} : (loadFilter t f.path).result = .ok d →
      Entry t f ("  " ++ Text.padRight 24 d.name ++ " " ++ d.description ++ "\n")
  /-- The file cannot be loaded. -/
  | failed {e : FilterError} : (loadFilter t f.path).result = .error e →
      Entry t f ("  " ++ Text.padRight 24 f.path ++ " (" ++ e.message ++ ")\n")

/-- What a list of the filters in some folders writes, and the error that it ends with. -/
inductive Listing (t : Tree) (folders extensions : List String) : String → Option String → Prop where
  /-- A path leads to something that is no folder. -/
  | unreadable {folder : String} : folder ∈ folders → ¬ Readable t folder →
      Listing t folders extensions "" (some "Not a directory (os error 20)")
  /-- No file in the folders fits. -/
  | empty : (∀ folder ∈ folders, Readable t folder) →
      (∀ f : Found, f.folder ∈ folders → ¬ Fits t extensions f) →
      Listing t folders extensions
        ("No filters found in [" ++ ", ".intercalate (folders.map Text.visible) ++ "]\n") none
  /-- There is a line for each file that fits, as often as its folder is among the folders and for no
  other file, in the order of their paths. -/
  | filters {found : List Found} {entries : List String} :
      (∀ folder ∈ folders, Readable t folder) → found ≠ [] →
      (∀ f, Fits t extensions f → found.count f = folders.count f.folder) →
      (∀ f ∈ found, f.folder ∈ folders ∧ Fits t extensions f) →
      found.Pairwise (fun a b => Files.Path.le a.path b.path) →
      List.Forall₂ (Entry t) found entries →
      Listing t folders extensions ("Available filters:\n" ++ String.join entries) none

theorem entry_listLine (t : Tree) (f : Found) : Entry t f (listLine f (Library.load t f).result) := by
  rw [Library.load]
  cases h : (loadFilter t f.path).result with
  | ok d => exact .filter h
  | error e =>
    have hline : listLine f (.error e) =
        "  " ++ Text.padRight 24 f.path ++ " (" ++ e.message ++ ")\n" := by
      simp only [listLine, line, String.append_assoc]
      rfl
    rw [hline]
    exact .failed h

/-- A list of filters is what it has to be. -/
theorem listing_listFilters (ht : t.Distinct) (folders extensions : List String) :
    Listing t folders extensions (listFilters t folders extensions).output
      (listFilters t folders extensions).failure := by
  have hreadable : (∃ found, (Library.list t folders extensions).result = .ok found) ↔
      ∀ folder ∈ folders, Readable t folder := Library.exists_list
  cases hlist : (Library.list t folders extensions).result with
  | error e =>
    obtain rfl := Library.list_eq_error hlist
    have hnot : ¬ ∀ folder ∈ folders, Readable t folder := by simp [← hreadable, hlist]
    obtain ⟨folder, hfolder⟩ := not_forall.1 hnot
    obtain ⟨hfolder, hfail⟩ := Classical.not_imp.1 hfolder
    simp only [listFilters, hlist]
    exact .unreadable hfolder hfail
  | ok found =>
    have hall := hreadable.1 ⟨found, hlist⟩
    obtain ⟨hfits, hsorted⟩ := Library.list_spec ht hlist
    cases found with
    | nil =>
      have hline (names : String) : line s!"No filters found in [{names}]" =
          "No filters found in [" ++ names ++ "]\n" := by
        simp only [line, String.append_assoc]
        rfl
      simp only [listFilters, hlist, hline]
      refine .empty hall fun f hfolder hfit => ?_
      have hcount := (hfits f).1 hfit
      rw [List.count_nil] at hcount
      exact Nat.ne_of_lt (List.count_pos_iff.2 hfolder) hcount
    | cons f found =>
      have hentries : List.Forall₂ (Entry t) (f :: found)
          ((f :: found).map fun f => listLine f (Library.load t f).result) := by
        rw [List.forall₂_map_right_iff, List.forall₂_same]
        exact fun f _ => entry_listLine t f
      simp only [listFilters, hlist, List.map_map]
      exact .filters hall (List.cons_ne_nil _ _) (fun f => (hfits f).1) (fun f => (hfits f).2)
        hsorted hentries

end Cli

end ShaderFilter
