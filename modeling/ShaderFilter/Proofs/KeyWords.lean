import ShaderFilter.Proofs.Keys
import ShaderFilter.Proofs.Number.Digits
import ShaderFilter.Proofs.Text.ByteOrder

/-!
# Words for keys

A word stands for a key by a name of the key or by its code. The reader looks the word up among the
names first and reads a number only where there is no name, but the order does not matter: every
name starts with a letter, and no decimal notation does (`Key.not_numeral_of_mem_names`). So a word
is read as a key exactly where it is written for it (`Key.read?_eq_some`), and since neither a name
nor a number belongs to two keys, no word is written for two.
-/

namespace ShaderFilter

namespace Number

/-- A decimal notation starts with a digit or a sign, which are before the letters. -/
theorem Numeral.exists_head {cs : List Char} {n : Int} (h : Numeral cs n) :
    ∃ c ds, cs = c :: ds ∧ c.toNat ≤ 57 := by
  cases h with
  | plain hd =>
    obtain ⟨c, ds, rfl⟩ := List.exists_cons_of_ne_nil hd.1
    have hc := hd.2 c List.mem_cons_self
    simp only [Char.isDigit, Bool.and_eq_true, decide_eq_true_eq] at hc
    exact ⟨c, ds, rfl, hc.2⟩
  | plus => exact ⟨_, _, rfl, by decide⟩
  | minus => exact ⟨_, _, rfl, by decide⟩

end Number

/-- The first byte of a text that starts with an ASCII character is the code of the character. -/
theorem Text.headD_bytes {s : String} {c : Char} {cs : List Char} (h : s.toList = c :: cs)
    (hc : c.toNat < 128) : (Text.bytes s).headD 0 = UInt8.ofNat c.toNat := by
  have hle : c.val.toNat ≤ 127 := Nat.le_of_lt_succ hc
  rw [Text.bytes_eq, h, List.flatMap_cons, String.utf8EncodeChar, if_pos hle]
  rfl

namespace Key

open Number (Numeral digits)

theorem mem_names {w : String} {k : Key} :
    (w, k) ∈ names ↔ w ∈ (namesOf k.code).1 :: (namesOf k.code).2 := by
  simp only [names, List.mem_flatMap, List.mem_finRange, true_and, List.mem_map, Prod.mk.injEq]
  constructor
  · rintro ⟨code, name, hname, rfl, rfl⟩
    exact hname
  · intro h
    exact ⟨k.code, w, h, rfl, rfl⟩

/-- Every name of a key starts with a letter. -/
theorem first_byte_of_mem_names {w : String} {k : Key} (h : (w, k) ∈ names) :
    64 < (Text.bytes w).headD 0 := by
  have hletters : ∀ entry ∈ keyNames, ∀ name ∈ entry.1 :: entry.2,
      64 < (Text.bytes name).headD 0 := by decide +kernel
  exact hletters _ (List.get_mem _ _) w (mem_names.1 h)

/-- No name of a key is a number. -/
theorem not_numeral_of_mem_names {w : String} {k : Key} (h : (w, k) ∈ names) (n : Int) :
    ¬ Numeral w.toList n := by
  intro hn
  obtain ⟨c, cs, hw, hc⟩ := hn.exists_head
  have hfirst := first_byte_of_mem_names h
  rw [Text.headD_bytes hw (by omega), UInt8.lt_iff_toNat_lt,
    UInt8.toNat_ofNat_of_lt' (Nat.lt_of_le_of_lt hc (by decide))] at hfirst
  exact absurd hfirst (Nat.not_lt.2 (hc.trans (by decide)))

/-- The reader of keys reads a word as the key that it is written for. -/
theorem read?_eq_some {w : String} {k : Key} : read? w = some k ↔ Written w k := by
  rw [read?, Option.orElse_eq_orElse, Option.orElse_eq_or, Option.or_eq_some_iff, Written,
    ofName?_eq_some, Option.bind_eq_bind, Option.bind_eq_some_iff]
  simp only [Number.integer?_eq_some, ofCode?_eq_some, exists_eq_right]
  refine or_congr_right (and_iff_right_of_imp fun hn => ?_)
  -- A number is no name, so the reader gets as far as the number.
  rw [Option.eq_none_iff_forall_ne_some]
  intro j hj
  exact not_numeral_of_mem_names (ofName?_eq_some.1 hj) _ hn

/-- A word is written for one key at most. -/
theorem Written.unique {w : String} {j k : Key} (hj : Written w j) (hk : Written w k) : j = k :=
  Option.some.inj ((read?_eq_some.2 hj).symm.trans (read?_eq_some.2 hk))

theorem written_name (k : Key) : Written k.name k := .inl (name_mem_names k)

/-- Zeros in front of a code do not count, however many there are. -/
theorem written_zeros (k : Key) (n : Nat) :
    Written (String.ofList (List.replicate n '0' ++ digits k.code)) k := by
  have hdigits : Number.Digits (List.replicate n '0' ++ digits k.code) := by
    obtain ⟨hne, hall⟩ := Number.digits_spec k.code
    refine ⟨List.append_ne_nil_of_right_ne_nil _ hne, fun c hc => ?_⟩
    exact (List.mem_append.1 hc).elim Number.isDigit_of_mem_zeros (hall c)
  have h := Numeral.plain hdigits
  rw [Number.digitsValue_zeros_append, Number.digitsValue_digits] at h
  exact .inr (by rwa [String.toList_ofList])

end Key

/-- **A word is read as a key exactly where it is a name of the key or a notation of its code.** The
notation has at most one sign and then decimal digits, as many as there are; every other word is
refused. No name is a number, so neither way of writing hides the other, and no word is written for
two keys. The own name of a key and its code, also with zeros in front, are read as the key. -/
theorem Key.words_for_keys (w : String) (k : Key) :
    (Key.read? w = some k ↔ (w, k) ∈ Key.names ∨ Number.Numeral w.toList k.code) ∧
    (Key.read? w = none ↔ ∀ j, ¬ Key.Written w j) ∧
    ((w, k) ∈ Key.names → ∀ n, ¬ Number.Numeral w.toList n) ∧
    (∀ j, Key.Written w j → Key.Written w k → j = k) ∧
    Key.read? k.name = some k ∧
    Key.read? (Number.integerText k.code) = some k ∧
    ∀ n, Key.read? (String.ofList (List.replicate n '0' ++ Number.digits k.code)) = some k := by
  refine ⟨Key.read?_eq_some, ?_, Key.not_numeral_of_mem_names, fun j => Key.Written.unique,
    Key.read?_eq_some.2 k.written_name, ?_, fun n => Key.read?_eq_some.2 (k.written_zeros n)⟩
  · rw [Option.eq_none_iff_forall_ne_some]
    exact forall_congr' fun j => not_congr Key.read?_eq_some
  · exact Key.read?_eq_some.2 (.inr (Number.numeral_integerText k.code))

/-- The code of a key may have a sign, also a zero, but no blanks around it. -/
example : ["+024", "-0", "24 ", "173"].map Key.read? =
    [some ⟨24⟩, some ⟨0⟩, none, none] := by decide +kernel

end ShaderFilter
