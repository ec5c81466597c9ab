import ShaderFilter.Key
import Mathlib.Data.List.Nodup

/-!
# Names of keys

No name, own or further one, belongs to two keys. So a name can be looked up in any order, and a key
is known by its own name.
-/

namespace ShaderFilter

/-- The bytes of a text as the digits of one number. Numbers are compared faster than texts. -/
def Text.byteNumber (s : String) : Nat :=
  s.toByteArray.data.toList.foldl (fun n b => 256 * n + b.toNat) 0

namespace Key

/-- No name belongs to two keys, and no key has a name twice. -/
theorem nodup_names : (names.map (·.1)).Nodup := by
  refine List.Nodup.of_map Text.byteNumber ?_
  decide +kernel

/-- The names of keys mean what the table says. -/
theorem ofName?_eq_some {w : String} {k : Key} : ofName? w = some k ↔ (w, k) ∈ names := by
  have hunique {a b : String × Key} (ha : a ∈ names) (hb : b ∈ names) (h : a.1 = b.1) : a = b :=
    List.inj_on_of_nodup_map nodup_names ha hb h
  simp only [ofName?, Option.map_eq_some_iff]
  constructor
  · rintro ⟨⟨v, k⟩, hfind, rfl⟩
    obtain rfl : v = w := by simpa using List.find?_some hfind
    exact List.mem_of_find?_eq_some hfind
  · intro h
    obtain ⟨e, hfind⟩ := Option.isSome_iff_exists.1 <|
      (List.find?_isSome (p := fun e : String × Key => e.1 == w)).2 ⟨(w, k), h, by simp⟩
    refine ⟨e, hfind, ?_⟩
    have hw : e.1 = w := by simpa using List.find?_some hfind
    rw [hunique (List.mem_of_find?_eq_some hfind) h hw]

/-- The own name of a key is among its names. -/
theorem name_mem_names (k : Key) : (k.name, k) ∈ names :=
  List.mem_flatMap.2 ⟨k.code, List.mem_finRange _, List.mem_map.2 ⟨k.name, List.mem_cons_self, rfl⟩⟩

theorem name_injective {j k : Key} (h : j.name = k.name) : j = k := by
  have hj := ofName?_eq_some.2 (name_mem_names j)
  rw [h, ofName?_eq_some.2 (name_mem_names k)] at hj
  exact (Option.some.inj hj).symm

end Key

end ShaderFilter
