import ShaderFilter.Files.Tree
import Mathlib.Data.List.Nodup

/-!
# File trees as maps

A file tree lists its entries in some order, with a place at most once (`Tree.Distinct`), as every
tree does that grows entry by entry (`distinct_build`). Then it is a map from places to entries, and
the order is that in which the system enumerates a folder, nothing else: paths lead to the same
places (`Rearranged.resolve_eq`), since they are followed by lookups only.
-/

namespace ShaderFilter.Files.Tree

variable {t t' : Tree} {p : Place} {e : Entry}

/-! ### Distinct places -/

/-- No place is listed twice. -/
def Distinct (t : Tree) : Prop := (t.entries.map (·.1)).Nodup

theorem at?_of_ne_nil (hp : p ≠ []) :
    t.at? p = (t.entries.find? fun x => x.1 == p).map (·.2) := if_neg hp

/-- What is at a place is the entry that is listed for it. -/
theorem Distinct.at?_eq_some (ht : t.Distinct) (hp : p ≠ []) :
    t.at? p = some e ↔ (p, e) ∈ t.entries := by
  rw [at?_of_ne_nil hp, Option.map_eq_some_iff]
  constructor
  · rintro ⟨⟨q, e⟩, hfind, rfl⟩
    obtain rfl : q = p := by simpa using List.find?_some hfind
    exact List.mem_of_find?_eq_some hfind
  · intro hmem
    have hsome : (t.entries.find? fun x => x.1 == p).isSome :=
      List.find?_isSome.2 ⟨(p, e), hmem, beq_self_eq_true p⟩
    obtain ⟨⟨q, e'⟩, hfind⟩ := Option.isSome_iff_exists.1 hsome
    obtain rfl : q = p := by simpa using List.find?_some hfind
    have heq : (q, e') = (q, e) :=
      List.inj_on_of_nodup_map ht (List.mem_of_find?_eq_some hfind) hmem rfl
    exact ⟨(q, e'), hfind, congrArg Prod.snd heq⟩

theorem Distinct.addAt (ht : t.Distinct) (p : Place) (e : Entry) : (t.addAt p e).Distinct := by
  unfold Tree.addAt
  split
  · exact ht
  · rename_i hnone
    have hp : p ≠ [] := by
      rintro rfl
      exact hnone rfl
    have hfree : p ∉ t.entries.map (·.1) := by
      rw [at?_of_ne_nil hp, Option.isSome_map, List.find?_isSome] at hnone
      simpa using hnone
    simpa only [Distinct, List.map_append, List.map_cons, List.map_nil, List.concat_eq_append]
      using List.Nodup.concat hfree ht

/-- Adding an entry and the folders on the way keeps the places distinct. -/
theorem Distinct.add (ht : t.Distinct) (p : Place) (e : Entry) : (t.add p e).Distinct := by
  have hfolders (qs : List Place) :
      (qs.foldl (fun t q => t.addAt q .folder) t).Distinct := by
    induction qs generalizing t with
    | nil => exact ht
    | cons q qs ih => exact ih (ht.addAt q .folder)
  exact (hfolders _).addAt p e

/-- The tree that grows from nothing, entry by entry. -/
def build (working : Place) (entries : List (Place × Entry)) : Tree :=
  entries.foldl (fun t x => t.add x.1 x.2) ⟨[], working⟩

/-- No place is listed twice in a tree that grows entry by entry. -/
theorem distinct_build (working : Place) (entries : List (Place × Entry)) :
    (build working entries).Distinct := by
  have hgrown (t : Tree) (ht : t.Distinct) :
      (entries.foldl (fun t x => t.add x.1 x.2) t).Distinct := by
    induction entries generalizing t with
    | nil => exact ht
    | cons x entries ih => exact ih (t.add x.1 x.2) (ht.add x.1 x.2)
  exact hgrown ⟨[], working⟩ List.nodup_nil

/-! ### Following paths -/

/-- Steps are followed by lookups only. -/
theorem follow_congr (h : ∀ p, t.at? p = t'.at? p) (links : Nat) (p : Place)
    (steps : List Part) : t.follow links p steps = t'.follow links p steps := by
  fun_induction t.follow links p steps with
  | case1 links p steps hp => rw [follow.eq_def, ← h, hp]
  | case2 links p e hp => rw [follow.eq_def, ← h, hp]
  | case3 links p rest hp ih => rw [ih, follow.eq_def t' links p, ← h, hp]
  | case4 links p rest hp ih => rw [ih, follow.eq_def t' links p (.here :: rest), ← h, hp]
  | case5 links p rest hp ih => rw [ih, follow.eq_def t' links p, ← h, hp]
  | case6 links p s rest hp hs =>
    rw [follow.eq_def, ← h, hp]
    exact (if_pos hs).symm
  | case7 p s rest hp hs target hlink =>
    rw [follow.eq_def, ← h, hp]
    simp only [if_neg hs, ← h, hlink, if_true]
  | case8 links p s rest hp hs target hlink hlinks ih =>
    rw [ih, follow.eq_def t' links p, ← h, hp]
    simp only [if_neg hs, ← h, hlink, if_neg hlinks]
  | case9 links p s rest hp hs hlink ih =>
    rw [ih, follow.eq_def t' links p, ← h, hp]
    simp only [if_neg hs, ← h]
  | case10 links p e step rest hroot hhere hup hname hp =>
    rw [follow.eq_def, ← h, hp]
    cases e <;> cases step <;> simp_all

/-- Two trees have the same entries, listed in two orders. -/
structure Rearranged (t t' : Tree) : Prop where
  /-- The entries are the same. -/
  entries : t.entries.Perm t'.entries
  /-- The working folder is the same. -/
  working : t.working = t'.working

namespace Rearranged

theorem symm (h : t.Rearranged t') : t'.Rearranged t := ⟨h.entries.symm, h.working.symm⟩

variable (h : t.Rearranged t') (ht : t.Distinct)

include h ht

theorem distinct : t'.Distinct := (h.entries.map Prod.fst).nodup ht

theorem at?_eq (p : Place) : t.at? p = t'.at? p := by
  by_cases hp : p = []
  · rw [hp, at?, at?, if_pos rfl, if_pos rfl]
  · ext e
    rw [ht.at?_eq_some hp, (h.distinct ht).at?_eq_some hp, h.entries.mem_iff]

/-- A path leads to the same place, in whichever order the entries are listed. -/
theorem resolve_eq (path : String) : t.resolve path = t'.resolve path := by
  rw [resolve, resolve, h.working]
  simp only [follow_congr (h.at?_eq ht)]

end Rearranged

/-! ### Listing folders -/

/-- An entry as one of a folder, if it is right in it: its name there and what it is. -/
def child? (p : Place) (x : Place × Entry) : Option (String × Entry) :=
  if x.1.dropLast = p then x.1.getLast?.map (·, x.2) else none

theorem child?_eq_some {x : Place × Entry} {name : String} :
    child? p x = some (name, e) ↔ x = (p ++ [name], e) := by
  unfold child?
  constructor
  · intro h
    split at h
    · rename_i hp
      obtain ⟨last, hlast, heq⟩ := Option.map_eq_some_iff.1 h
      obtain ⟨rfl, rfl⟩ := Prod.mk.inj heq
      exact Prod.ext (by rw [← hp, List.dropLast_append_getLast? _ hlast]) rfl
    · cases h
  · rintro rfl
    simp

/-- A folder lists what is right in it. -/
theorem Distinct.mem_children (ht : t.Distinct) {name : String} :
    (name, e) ∈ t.entries.filterMap (child? p) ↔ t.at? (p ++ [name]) = some e := by
  rw [ht.at?_eq_some (List.concat_ne_nil name p), List.mem_filterMap]
  simp only [child?_eq_some, exists_eq_right]

/-- A folder lists each name once. -/
theorem Distinct.nodup_children (ht : t.Distinct) (p : Place) :
    ((t.entries.filterMap (child? p)).map (·.1)).Nodup := by
  rw [List.Nodup, List.pairwise_map, List.pairwise_filterMap]
  refine (List.pairwise_map.1 ht).imp ?_
  rintro x y hxy ⟨name, e⟩ hx ⟨_, e'⟩ hy rfl
  rw [child?_eq_some.1 hx, child?_eq_some.1 hy] at hxy
  exact hxy rfl

end ShaderFilter.Files.Tree
