import ShaderFilter.Library
import ShaderFilter.Proofs.Files.PathOrder
import ShaderFilter.Proofs.Files.Trees
import ShaderFilter.Proofs.Text.Fields

/-!
# Finding filters

The files that are found in some folders are described by what is there, not by how it is searched:
a folder holds a file (`Library.Holds`) with one of the extensions (`HasExtension`). The search of
one folder finds each such file once and nothing else (`Library.search_spec`), so the search of all
finds it as often as its folder is among them (`Library.searchAll_spec`).

This does not speak of an order. So the searches of rearranged trees and folders find the same files
as often (`Library.perm_searchAll`), and sorting brings them into the same order, as far as it tells
them apart (`Found.parts_mergeSort`).
-/

namespace ShaderFilter

open Files (Tree Part)

/-! ### Extensions -/

/-- A list is cut at the last place of one of its elements. -/
theorem exists_last_of_mem {α : Type} {a : α} {as : List α} (h : a ∈ as) :
    ∃ front back, as = front ++ a :: back ∧ a ∉ back := by
  obtain ⟨back, front, hrev, hback⟩ := List.eq_append_cons_of_mem (List.mem_reverse.2 h)
  refine ⟨front.reverse, back.reverse, ?_, by simpa using hback⟩
  rw [← List.reverse_reverse as, hrev]
  simp

namespace Files.Path

theorem extension?_of_not_mem {name : String} (h : '.' ∉ name.toList) : extension? name = none := by
  rw [extension?, Text.pieces_eq_splitOn, List.splitOn_eq_singleton h]
  rfl

theorem extension?_of_append {name : String} {stem x : List Char}
    (hname : name.toList = stem ++ '.' :: x) (hx : '.' ∉ x) :
    extension? name = if stem = [] then none else some (String.ofList x) := by
  rw [extension?, hname, Text.pieces_append, Text.pieces_eq_splitOn '.' x,
    List.splitOn_eq_singleton hx, List.reverse_append, List.reverse_singleton,
    List.singleton_append]
  obtain ⟨before, others, hpieces⟩ :=
    List.exists_cons_of_ne_nil (List.reverse_ne_nil_iff.2 (Text.pieces_ne_nil '.' stem))
  have hstem : before = [] ∧ others = [] ↔ stem = [] := by
    rw [← Text.pieces_eq_nil_singleton '.' stem, List.reverse_eq_iff.1 hpieces,
      List.reverse_eq_iff, List.reverse_singleton, List.cons.injEq]
  rw [hpieces]
  exact if_congr hstem rfl rfl

/-- The extension of a name follows its last dot, which is not the first character. -/
theorem extension?_eq_some {name x : String} :
    extension? name = some x ↔
      ∃ stem, name.toList = stem ++ '.' :: x.toList ∧ stem ≠ [] ∧ '.' ∉ x.toList := by
  constructor
  · intro h
    have hdot : '.' ∈ name.toList := by
      by_contra hnot
      cases (extension?_of_not_mem hnot).symm.trans h
    obtain ⟨stem, rest, hname, hrest⟩ := exists_last_of_mem hdot
    rw [extension?_of_append hname hrest] at h
    split at h
    · cases h
    · cases h
      exact ⟨stem, by rwa [String.toList_ofList], ‹_›, by rwa [String.toList_ofList]⟩
  · rintro ⟨stem, hname, hstem, hx⟩
    rw [extension?_of_append hname hx, if_neg hstem, String.ofList_toList]

end Files.Path

/-- A file name has one of some extensions, in any case of ASCII letters: what follows its last dot,
unless this is the first character. -/
def HasExtension (extensions : List String) (name : String) : Prop :=
  ∃ stem x, name.toList = stem ++ '.' :: x ∧ stem ≠ [] ∧ '.' ∉ x ∧
    ∃ y ∈ extensions, y.toList.map Char.toLower = x.map Char.toLower

theorem hasExtension_iff {extensions : List String} {name : String} :
    Library.hasExtension extensions name ↔ HasExtension extensions name := by
  have hlower {y x : String} : Text.lower y = Text.lower x ↔
      y.toList.map Char.toLower = x.toList.map Char.toLower := String.ofList_inj
  rw [Library.hasExtension, HasExtension]
  split
  · rename_i x hx
    obtain ⟨stem, hname, hstem, hdot⟩ := Files.Path.extension?_eq_some.1 hx
    simp only [List.any_eq_true, beq_iff_eq, hlower]
    constructor
    · exact fun h => ⟨stem, x.toList, hname, hstem, hdot, h⟩
    · rintro ⟨stem', x', hname', hstem', hdot', h⟩
      have hx' := Files.Path.extension?_of_append hname' hdot'
      rw [hx, if_neg hstem'] at hx'
      rwa [Option.some.inj hx', String.toList_ofList]
  · rename_i hnone
    refine iff_of_false Bool.false_ne_true ?_
    rintro ⟨stem, x, hname, hstem, hdot, -⟩
    rw [Files.Path.extension?_of_append hname hdot, if_neg hstem] at hnone
    cases hnone

/-! ### Folders -/

namespace Library

/-- A path leads to a folder that holds a file of this name itself, not a folder or a link. -/
def Holds (t : Tree) (path name : String) : Prop :=
  ∃ place content, t.resolve path = .ok (place, .folder) ∧
    t.at? (place ++ [name]) = some (.file content)

/-- A path can be searched: it leads to a folder or to nothing. -/
def Readable (t : Tree) (path : String) : Prop :=
  ∀ place e, t.resolve path = .ok (place, e) → e = .folder

variable {t t' : Tree} {extensions : List String} {folder : String}

theorem mem_fileNames {listing : List (String × Files.Entry)} {name : String} :
    name ∈ fileNames listing ↔ ∃ content, (name, .file content) ∈ listing := by
  rw [fileNames, List.mem_filterMap]
  constructor
  · rintro ⟨⟨name', e⟩, hmem, h⟩
    cases e with
    | file content =>
      cases h
      exact ⟨content, hmem⟩
    | _ => cases h
  · exact fun ⟨content, hmem⟩ => ⟨_, hmem, rfl⟩

theorem nodup_fileNames {listing : List (String × Files.Entry)}
    (h : (listing.map (·.1)).Nodup) : (fileNames listing).Nodup := by
  rw [fileNames, List.Nodup, List.pairwise_filterMap]
  refine (List.pairwise_map.1 h).imp ?_
  rintro ⟨name, e⟩ ⟨name', e'⟩ hne
  cases e <;> cases e' <;> simp_all

/-- The names of a folder are those of the files in it; nothing has no names. -/
theorem result_names (t : Tree) (folder : String) :
    (names t folder).result = match t.resolve folder with
      | .ok (place, .folder) => .ok (fileNames (t.entries.filterMap (Tree.child? place)))
      | .ok _ => .error .notAFolder
      | .error _ => .ok [] := by
  rw [names, Tree.has, Tree.list]
  match h : t.resolve folder with
  | .error _ => rfl
  | .ok (place, .folder) => rfl
  | .ok (place, .file _) | .ok (place, .link _) => rfl

/-- Only what is no folder has no names. -/
theorem names_eq_error {e : Files.OsError} (h : (names t folder).result = .error e) :
    e = .notAFolder := by
  rw [result_names] at h
  split at h <;> cases h
  rfl

theorem exists_names : (∃ ns, (names t folder).result = .ok ns) ↔ Readable t folder := by
  rw [result_names, Readable]
  match t.resolve folder with
  | .error _ | .ok (place, .folder) => simp
  | .ok (place, .file _) | .ok (place, .link _) => simp

/-- The names of a folder are those of the files that it holds, each once. -/
theorem names_spec (ht : t.Distinct) {ns : List String} (h : (names t folder).result = .ok ns) :
    ns.Nodup ∧ ∀ name, name ∈ ns ↔ Holds t folder name := by
  rw [result_names] at h
  split at h
  · rename_i place hplace
    cases h
    refine ⟨nodup_fileNames (ht.nodup_children place), fun name => ?_⟩
    simp only [mem_fileNames, ht.mem_children, Holds]
    constructor
    · exact fun ⟨content, hfile⟩ => ⟨place, content, hplace, hfile⟩
    · rintro ⟨_, content, hplace', hfile⟩
      cases hplace.symm.trans hplace'
      exact ⟨content, hfile⟩
  · cases h
  · rename_i hplace
    cases h
    refine ⟨List.nodup_nil, fun name => iff_of_false List.not_mem_nil ?_⟩
    rintro ⟨_, _, hplace', -⟩
    cases hplace.symm.trans hplace'

/-! ### Searching -/

/-- A found file is there: its folder holds it, and it has one of the extensions. -/
def Fits (t : Tree) (extensions : List String) (f : Found) : Prop :=
  Holds t f.folder f.name ∧ HasExtension extensions f.name

theorem search_eq_ok {found : List Found} :
    (search t extensions folder).result = .ok found ↔ ∃ ns, (names t folder).result = .ok ns ∧
      (ns.filter (hasExtension extensions)).map (fun name => ⟨folder, name⟩) = found := by
  simp only [search, Logged.result_bind, Logged.result_pure, bind_eq_ok, Except.ok.injEq]

theorem exists_search (extensions : List String) :
    (∃ found, (search t extensions folder).result = .ok found) ↔ Readable t folder := by
  simp only [search_eq_ok, ← exists_names]
  constructor
  · exact fun ⟨_, ns, h, _⟩ => ⟨ns, h⟩
  · exact fun ⟨ns, h⟩ => ⟨_, ns, h, rfl⟩

/-- The search of a folder finds each file that fits once, and nothing else. -/
theorem search_spec (ht : t.Distinct) {found : List Found}
    (h : (search t extensions folder).result = .ok found) :
    found.Nodup ∧ ∀ f, f ∈ found ↔ f.folder = folder ∧ Fits t extensions f := by
  obtain ⟨ns, hns, rfl⟩ := search_eq_ok.1 h
  obtain ⟨hnodup, hmem⟩ := names_spec ht hns
  constructor
  · refine List.Nodup.map (fun a b hab => ?_) (hnodup.filter _)
    exact (Found.mk.inj hab).2
  · rintro ⟨folder', name⟩
    simp only [List.mem_map, List.mem_filter, hmem, hasExtension_iff, Found.mk.injEq, Fits]
    constructor
    · rintro ⟨_, hfits, rfl, rfl⟩
      exact ⟨rfl, hfits⟩
    · rintro ⟨rfl, hfits⟩
      exact ⟨_, hfits, rfl, rfl⟩

theorem exists_searchAll (extensions : List String) {folders : List String} :
    (∃ found, (searchAll t extensions folders).result = .ok found) ↔
      ∀ folder ∈ folders, Readable t folder := by
  induction folders with
  | nil => exact iff_of_true ⟨_, rfl⟩ nofun
  | cons folder folders ih =>
    rw [List.forall_mem_cons, ← ih, ← exists_search extensions]
    simp only [searchAll, Logged.result_bind, Logged.result_pure, bind_eq_ok, Except.ok.injEq]
    constructor
    · exact fun ⟨_, found, h, others, ho, _⟩ => ⟨⟨found, h⟩, others, ho⟩
    · exact fun ⟨⟨found, h⟩, others, ho⟩ => ⟨_, found, h, others, ho, rfl⟩

/-- The search of some folders finds a file that fits as often as its folder is among them, and
nothing else. -/
theorem searchAll_spec (ht : t.Distinct) {folders : List String} {found : List Found}
    (h : (searchAll t extensions folders).result = .ok found) (f : Found) :
    (Fits t extensions f → found.count f = folders.count f.folder) ∧
      (f ∈ found → Fits t extensions f) := by
  induction folders generalizing found with
  | nil =>
    cases h
    exact ⟨fun _ => rfl, nofun⟩
  | cons folder folders ih =>
    simp only [searchAll, Logged.result_bind, Logged.result_pure, bind_eq_ok, Except.ok.injEq] at h
    obtain ⟨here, hhere, others, hothers, rfl⟩ := h
    obtain ⟨hnodup, hmem⟩ := search_spec ht hhere
    obtain ⟨hcount, hfits⟩ := ih hothers
    constructor
    · intro hf
      rw [List.count_append, hcount hf, hnodup.count, List.count_cons, Nat.add_comm]
      simp only [hmem, hf, and_true, beq_iff_eq, eq_comm (a := f.folder)]
    · intro hf
      exact (List.mem_append.1 hf).elim (fun hf => ((hmem f).1 hf).2) hfits

end Library

/-! ### Orders -/

namespace Found

theorem le_eq (a b : Found) :
    le a b = (Files.Path.compareParts (Files.Path.parts a.path) (Files.Path.parts b.path)).isLE :=
  Files.Path.le_eq _ _

theorem le_trans (a b c : Found) (hab : le a b) (hbc : le b c) : le a c := by
  rw [le_eq] at *
  exact Std.TransCmp.isLE_trans hab hbc

theorem le_total (a b : Found) : le a b || le b a := by
  rw [Bool.or_eq_true, le_eq, le_eq, ← Std.OrientedCmp.isGE_iff_isLE]
  cases Files.Path.compareParts (Files.Path.parts b.path) (Files.Path.parts a.path) <;> decide

/-- Sorting brings the same files into the same order, as far as it tells them apart. -/
theorem parts_mergeSort {found found' : List Found} (h : found.Perm found') :
    (found.mergeSort le).map (fun f => Files.Path.parts f.path) =
      (found'.mergeSort le).map fun f => Files.Path.parts f.path := by
  have hsorted (l : List Found) : ((l.mergeSort le).map fun f => Files.Path.parts f.path).Pairwise
      fun x y => (Files.Path.compareParts x y).isLE := by
    simp only [List.pairwise_map, ← le_eq]
    exact List.pairwise_mergeSort le_trans le_total l
  refine List.Perm.eq_of_pairwise (fun x y _ _ hxy hyx => ?_) (hsorted found) (hsorted found') ?_
  · exact Std.LawfulEqCmp.eq_of_compare (Std.OrientedCmp.isLE_antisymm hxy hyx)
  · exact (((List.mergeSort_perm _ _).trans h).trans (List.mergeSort_perm _ _).symm).map _

end Found

/-! ### Rearrangements -/

namespace Library

section

variable {t t' : Tree} (h : t.Rearranged t') (ht : t.Distinct)

include h ht

theorem holds_congr (path name : String) : Holds t path name ↔ Holds t' path name := by
  simp only [Holds, h.resolve_eq ht, h.at?_eq ht]

theorem readable_congr (path : String) : Readable t path ↔ Readable t' path := by
  simp only [Readable, h.resolve_eq ht]

end

theorem list_eq_ok {t : Tree} {folders : List String} {extensions : List String}
    {found : List Found} :
    (list t folders extensions).result = .ok found ↔
      ∃ raw, (searchAll t extensions folders).result = .ok raw ∧
        raw.mergeSort Found.le = found := by
  simp only [list, Logged.result_bind, Logged.result_pure, bind_eq_ok, Except.ok.injEq]

theorem exists_list {t : Tree} {folders : List String} {extensions : List String} :
    (∃ found, (list t folders extensions).result = .ok found) ↔
      ∀ folder ∈ folders, Readable t folder := by
  simp only [list_eq_ok, ← exists_searchAll extensions]
  constructor
  · exact fun ⟨_, raw, h, _⟩ => ⟨raw, h⟩
  · exact fun ⟨raw, h⟩ => ⟨_, raw, h, rfl⟩

/-- The list of some folders holds a file that fits as often as its folder is among them, and nothing
else, in the order of the paths. -/
theorem list_spec {t : Tree} (ht : t.Distinct) {folders extensions : List String}
    {found : List Found} (h : (list t folders extensions).result = .ok found) :
    (∀ f, (Fits t extensions f → found.count f = folders.count f.folder) ∧
      (f ∈ found → f.folder ∈ folders ∧ Fits t extensions f)) ∧
    found.Pairwise fun a b => Files.Path.le a.path b.path := by
  obtain ⟨raw, hraw, rfl⟩ := list_eq_ok.1 h
  have hperm := List.mergeSort_perm raw Found.le
  have hcount (f : Found) (hf : Fits t extensions f) :
      (raw.mergeSort Found.le).count f = folders.count f.folder := by
    rw [hperm.count_eq, (searchAll_spec ht hraw f).1 hf]
  have hfits (f : Found) (hf : f ∈ raw.mergeSort Found.le) :
      f.folder ∈ folders ∧ Fits t extensions f := by
    have hfit := (searchAll_spec ht hraw f).2 (hperm.mem_iff.1 hf)
    exact ⟨List.count_pos_iff.1 (hcount f hfit ▸ List.count_pos_iff.2 hf), hfit⟩
  exact ⟨fun f => ⟨hcount f, hfits f⟩, List.pairwise_mergeSort Found.le_trans Found.le_total raw⟩

/-- The files that are found do not depend on any order. -/
theorem perm_searchAll {t t' : Tree} {folders folders' : List String}
    {extensions extensions' : List String} {found found' : List Found}
    (ht : t.Distinct) (htree : t.Rearranged t') (hfolders : folders.Perm folders')
    (hext : ∀ x, x ∈ extensions ↔ x ∈ extensions')
    (h : (searchAll t extensions folders).result = .ok found)
    (h' : (searchAll t' extensions' folders').result = .ok found') : found.Perm found' := by
  rw [List.perm_iff_count]
  intro f
  obtain ⟨hcount, hfits⟩ := searchAll_spec ht h f
  obtain ⟨hcount', hfits'⟩ := searchAll_spec (htree.distinct ht) h' f
  have hiff : Fits t extensions f ↔ Fits t' extensions' f := by
    simp only [Fits, holds_congr htree ht, HasExtension, hext]
  by_cases hf : Fits t extensions f
  · rw [hcount hf, hcount' (hiff.1 hf), hfolders.count_eq]
  · rw [List.count_eq_zero.2 (mt hfits hf), List.count_eq_zero.2 (mt hfits' (mt hiff.2 hf))]

end Library

/-- **The filters that are listed are exactly the files that are there, in the order of their
paths.** The list exists where each folder can be searched. Then a file that a folder itself holds,
with one of the extensions, is listed as often as the folder is among the folders, and nothing else
is listed; a folder that is not there holds nothing. The list is ordered by the parts of the paths.
The order of folders, the order and repetition of extensions and the order in which the entries of
folders are enumerated make no difference to it, compared path by path.

No place of the tree is listed twice, as in every tree that grows entry by entry. -/
theorem Library.list_exact {t : Tree} (ht : t.Distinct) (folders : List String)
    (extensions : List String) :
    ((∃ found, (list t folders extensions).result = .ok found) ↔
      ∀ folder ∈ folders, Readable t folder) ∧
    ∀ found, (list t folders extensions).result = .ok found →
      (∀ f, (Fits t extensions f → found.count f = folders.count f.folder) ∧
        (f ∈ found → f.folder ∈ folders ∧ Fits t extensions f)) ∧
      found.Pairwise (fun a b => Files.Path.le a.path b.path) ∧
      ∀ t' folders' extensions', t.Rearranged t' → folders.Perm folders' →
        (∀ x, x ∈ extensions ↔ x ∈ extensions') →
        ∃ found', (list t' folders' extensions').result = .ok found' ∧
          found'.map (fun f => Files.Path.parts f.path) =
            found.map fun f => Files.Path.parts f.path := by
  refine ⟨exists_list, fun found h => ?_⟩
  obtain ⟨hfits, hsorted⟩ := list_spec ht h
  obtain ⟨raw, hraw, rfl⟩ := list_eq_ok.1 h
  refine ⟨hfits, hsorted, fun t' folders' extensions' htree hperm hext => ?_⟩
  have hreadable : ∀ folder ∈ folders', Readable t' folder := fun folder hfolder =>
    (readable_congr htree ht folder).1
      ((exists_searchAll extensions).1 ⟨raw, hraw⟩ folder (hperm.mem_iff.2 hfolder))
  obtain ⟨raw', hraw'⟩ := (exists_searchAll extensions').2 hreadable
  have hparts := Found.parts_mergeSort (perm_searchAll ht htree hperm hext hraw hraw')
  exact ⟨_, list_eq_ok.2 ⟨raw', hraw', rfl⟩, hparts.symm⟩

/-- A folder with two files that have an extension, and with a file, a folder and a link that are
not searched for. A link leads to the folder. -/
def linkedTree : Tree := .build []
  [(["d", "b.comp"], .file []), (["d", "A.COMP"], .file []), (["d", ".comp"], .file []),
    (["d", "c.comp"], .folder), (["d", "e.comp"], .link "b.comp"), (["l"], .link "d")]

theorem linkedTree_resolve :
    linkedTree.resolve "l" = .ok (["d"], .folder) ∧
    linkedTree.resolve "none" = .error .notFound := by
  have hsteps : ["l", "d", "none"].map Files.Path.steps =
      [[.name "l"], [.name "d"], [.name "none"]] := by decide +kernel
  have hsize : ["l", "d", "none"].map String.utf8ByteSize = [1, 1, 4] := by decide +kernel
  have hplaces : [[], ["l"], ["d"], ["none"]].map linkedTree.at? =
      [some .folder, some (.link "d"), some .folder, none] := by decide +kernel
  have hworking : linkedTree.working = [] := by decide +kernel
  simp only [List.map_cons, List.map_nil, List.cons.injEq, and_true] at hsteps hsize hplaces
  constructor <;>
    simp [Tree.resolve, Tree.follow, Tree.linkLimit, hsteps, hsize, hplaces, hworking]

/-- The folder that the link leads to is searched twice. -/
theorem Library.list_exact_linked :
    linkedTree.Distinct ∧
    ∃ found, (list linkedTree ["l", "none", "l"] ["comp"]).result =
        .ok found ∧
      found.map Found.path = ["l/A.COMP", "l/A.COMP", "l/b.comp", "l/b.comp"] ∧
      found.count ⟨"l", "A.COMP"⟩ = 2 ∧
      ∃ found', (list { linkedTree with entries := linkedTree.entries.reverse }
          ["none", "l", "l"] ["comp", "comp"]).result = .ok found' ∧
        found'.map (fun f => Files.Path.parts f.path) =
          found.map fun f => Files.Path.parts f.path := by
  have ht : linkedTree.Distinct := Tree.distinct_build _ _
  obtain ⟨hl, hnone⟩ := linkedTree_resolve
  have hnames : (names linkedTree "l").result = .ok ["b.comp", "A.COMP", ".comp"] := by
    rw [result_names, hl]
    rfl
  have hmissing : (names linkedTree "none").result = .ok [] := by
    rw [result_names, hnone]
  have hext : ["b.comp", "A.COMP", ".comp"].filter (hasExtension ["comp"]) =
      ["b.comp", "A.COMP"] := by decide +kernel
  have hle : [Found.le ⟨"l", "b.comp"⟩ ⟨"l", "A.COMP"⟩,
      Found.le ⟨"l", "A.COMP"⟩ ⟨"l", "b.comp"⟩] = [false, true] := by
    decide +kernel
  simp only [List.cons.injEq, and_true] at hle
  have hlist : (list linkedTree ["l", "none", "l"] ["comp"]).result = .ok
      [⟨"l", "A.COMP"⟩, ⟨"l", "A.COMP"⟩, ⟨"l", "b.comp"⟩,
        ⟨"l", "b.comp"⟩] := by
    simp [list, searchAll, search, hnames, hmissing, hext, List.mergeSort, List.merge, hle]
  obtain ⟨-, hexact⟩ := list_exact ht ["l", "none", "l"] ["comp"]
  obtain ⟨hfits, -, hsame⟩ := hexact _ hlist
  refine ⟨ht, _, hlist, by decide +kernel, ?_, hsame _ _ _ ⟨?_, rfl⟩ ?_ ?_⟩
  · have hfile : linkedTree.at? (["d"] ++ ["A.COMP"]) = some (.file []) := by decide +kernel
    exact (hfits ⟨"l", "A.COMP"⟩).1
      ⟨⟨_, _, hl, hfile⟩, hasExtension_iff.1 (by decide +kernel)⟩
  · exact (List.reverse_perm _).symm
  · exact List.Perm.swap _ _ _
  · simp

end ShaderFilter
