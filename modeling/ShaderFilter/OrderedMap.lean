/-!
# Ordered maps

Finite maps as lists of entries in strictly ascending order of the keys' ranks. Such a list holds a key
at most once, so two maps with the same lookups are equal (`OrderedMap.ext_get?`), and a map shows its
entries in one order however it was built.
-/

namespace ShaderFilter

/-- A type whose elements are told apart by a number that orders them. -/
class Ranked (κ : Type) where
  /-- The number of an element. -/
  rank : κ → Nat
  /-- Different elements have different numbers. -/
  rank_injective : ∀ {a b : κ}, rank a = rank b → a = b

open Ranked (rank rank_injective)

/-- A finite map from `κ` to `α` with its entries in ascending order. -/
structure OrderedMap (κ α : Type) [Ranked κ] where
  /-- The keys with their values. -/
  entries : List (κ × α)
  /-- The keys ascend strictly. -/
  ascending : entries.Pairwise fun a b => rank a.1 < rank b.1

namespace OrderedMap

variable {κ α : Type} [Ranked κ]

instance [DecidableEq κ] [DecidableEq α] : DecidableEq (OrderedMap κ α) := fun a b =>
  if h : a.entries = b.entries then isTrue (by cases a; cases b; cases h; rfl)
  else isFalse fun hab => h (congrArg entries hab)

/-- The map without entries. -/
def empty : OrderedMap κ α := ⟨[], .nil⟩

/-- Enters `v` at `k` into a list of entries, in the place of an entry at `k`. -/
def enter (k : κ) (v : α) : List (κ × α) → List (κ × α)
  | [] => [(k, v)]
  | e :: es =>
    if rank k < rank e.1 then (k, v) :: e :: es
    else if rank k = rank e.1 then (k, v) :: es
    else e :: enter k v es

theorem mem_of_mem_enter {k : κ} {v : α} {e : κ × α} {es : List (κ × α)} (h : e ∈ enter k v es) :
    e = (k, v) ∨ e ∈ es := by
  induction es with
  | nil => simpa [enter] using h
  | cons d ds ih => unfold enter at h; grind

theorem ascending_enter (k : κ) (v : α) {es : List (κ × α)}
    (h : es.Pairwise fun a b => rank a.1 < rank b.1) :
    (enter k v es).Pairwise fun a b => rank a.1 < rank b.1 := by
  induction es with
  | nil => simp [enter]
  | cons d ds ih =>
    have ⟨hd, hds⟩ := List.pairwise_cons.1 h
    unfold enter
    split
    · rename_i hlt
      exact h.cons fun e he => by
        rcases List.mem_cons.1 he with rfl | he
        · exact hlt
        · exact Nat.lt_trans hlt (hd e he)
    · split
      · rename_i heq
        exact hds.cons fun e he => by simpa [heq] using hd e he
      · refine (ih hds).cons fun e he => ?_
        rcases mem_of_mem_enter he with rfl | he
        · simp only; omega
        · exact hd e he

/-- The map with `v` at `k`, in the place of what was there. -/
def insert (m : OrderedMap κ α) (k : κ) (v : α) : OrderedMap κ α :=
  ⟨enter k v m.entries, ascending_enter k v m.ascending⟩

/-! ### Lookups -/

/-- The value at `k` in a list of entries. -/
def lookup (es : List (κ × α)) (k : κ) : Option α :=
  (es.find? fun e => rank e.1 == rank k).map (·.2)

theorem lookup_enter (es : List (κ × α)) (k j : κ) (v : α) :
    lookup (enter k v es) j = if rank k = rank j then some v else lookup es j := by
  unfold lookup
  induction es with
  | nil => by_cases h : rank k = rank j <;> simp [enter, h]
  | cons e es ih => unfold enter; grind

theorem lookup_eq_none {es : List (κ × α)} {k : κ} (h : ∀ e ∈ es, rank k < rank e.1) :
    lookup es k = none := by
  simp only [lookup, Option.map_eq_none_iff, List.find?_eq_none, beq_iff_eq]
  exact fun e he => Nat.ne_of_gt (h e he)

theorem lookup_cons (e : κ × α) (es : List (κ × α)) (k : κ) :
    lookup (e :: es) k = if rank e.1 = rank k then some e.2 else lookup es k := by
  by_cases h : rank e.1 = rank k <;> simp [lookup, h]

theorem eq_of_lookup {es fs : List (κ × α)} (he : es.Pairwise fun a b => rank a.1 < rank b.1)
    (hf : fs.Pairwise fun a b => rank a.1 < rank b.1) (h : ∀ k, lookup es k = lookup fs k) :
    es = fs := by
  induction es generalizing fs with
  | nil =>
    cases fs with
    | nil => rfl
    | cons f fs => simpa [lookup_cons, lookup] using h f.1
  | cons e es ih =>
    cases fs with
    | nil => simpa [lookup_cons, lookup] using h e.1
    | cons f fs =>
      have ⟨he, hes⟩ := List.pairwise_cons.1 he
      have ⟨hf, hfs⟩ := List.pairwise_cons.1 hf
      have first : rank e.1 = rank f.1 := by
        rcases Nat.lt_trichotomy (rank e.1) (rank f.1) with lt | eq | gt
        · have := h e.1
          rw [lookup_cons, lookup_cons, if_pos rfl, if_neg (Nat.ne_of_gt lt),
            lookup_eq_none fun d hd => Nat.lt_trans lt (hf d hd)] at this
          cases this
        · exact eq
        · have := h f.1
          rw [lookup_cons, lookup_cons, if_pos rfl, if_neg (Nat.ne_of_gt gt),
            lookup_eq_none fun d hd => Nat.lt_trans gt (he d hd)] at this
          cases this
      have value : e.2 = f.2 := by simpa [lookup_cons, first] using h e.1
      have rest : es = fs := ih hes hfs fun k => by
        by_cases hk : rank e.1 = rank k
        · rw [lookup_eq_none fun d hd => hk ▸ he d hd,
            lookup_eq_none fun d hd => hk ▸ first ▸ hf d hd]
        · simpa [lookup_cons, hk, ← first] using h k
      rw [rest, Prod.ext (rank_injective first) value]

theorem lookup_eq_some_iff {es : List (κ × α)} (h : es.Pairwise fun a b => rank a.1 < rank b.1) {k : κ}
    {v : α} : lookup es k = some v ↔ (k, v) ∈ es := by
  induction es with
  | nil => simp [lookup]
  | cons e es ih =>
    have ⟨he, hes⟩ := List.pairwise_cons.1 h
    rw [lookup_cons, List.mem_cons]
    by_cases hk : rank e.1 = rank k
    · have hnot : (k, v) ∉ es := fun hm => Nat.ne_of_lt (he (k, v) hm) hk
      have heq := rank_injective hk
      simp [hnot, Prod.ext_iff, heq, eq_comm]
    · have hne : (k, v) ≠ e := fun h => hk (by rw [← h])
      simp [hk, hne, ih hes]

/-- The value at `k`. -/
def get? (m : OrderedMap κ α) (k : κ) : Option α := lookup m.entries k

/-- Inserting changes the value at one key. -/
theorem get?_insert (m : OrderedMap κ α) (k j : κ) (v : α) :
    (m.insert k v).get? j = if rank k = rank j then some v else m.get? j :=
  lookup_enter m.entries k j v

/-- A map is given by its lookups. -/
theorem ext_get? {m n : OrderedMap κ α} (h : ∀ k, m.get? k = n.get? k) : m = n := by
  have := eq_of_lookup m.ascending n.ascending h
  cases m; cases n; cases this; rfl

/-- Insertions at different keys can be made in any order. -/
theorem insert_comm (m : OrderedMap κ α) {j k : κ} (h : j ≠ k) (v w : α) :
    (m.insert j v).insert k w = (m.insert k w).insert j v := by
  refine ext_get? fun i => ?_
  have hrank : rank j ≠ rank k := fun hr => h (rank_injective hr)
  simp only [get?_insert]
  by_cases hj : rank j = rank i <;> by_cases hk : rank k = rank i <;> simp [hj, hk]
  exact absurd (hj.trans hk.symm) hrank

/-- The entries of a map are its lookups. -/
theorem mem_entries {m : OrderedMap κ α} {k : κ} {v : α} : (k, v) ∈ m.entries ↔ m.get? k = some v :=
  (lookup_eq_some_iff m.ascending).symm

/-- The keys, in ascending order. -/
def keys (m : OrderedMap κ α) : List κ := m.entries.map (·.1)

end OrderedMap

end ShaderFilter
