import ShaderFilter.Proofs.Text.Decoding

/-!
# Strict decoding

Strict decoding accepts the bytes of a text and nothing else (`Utf8.decode?_eq_some`). That it reads
the bytes of a text is known character by character (`Utf8.chars?_encode`). Conversely a character
that is read is written with the bytes that were taken for it (`Utf8.cons_eq_of_next`): the limits
of the first two bytes leave out the surrogates and the forms that are longer than they need to be,
so the code of the character gives back each byte.
-/

namespace ShaderFilter.Text.Utf8

/-! ### Bytes from codes -/

theorem ofNat_eq_of_toNat {b : UInt8} {x : Nat} (h : x = b.toNat) : UInt8.ofNat x = b := by
  rw [h, UInt8.ofNat_toNat]

theorem encode_one {a : UInt8} (ha : a.toNat < 0x80) :
    String.utf8EncodeChar (Char.ofNat a.toNat) = [a] := by
  have hcode : (Char.ofNat a.toNat).val.toNat = a.toNat := toNat_charOfNat (.inl (by omega))
  rw [String.utf8EncodeChar, hcode, if_pos (by omega), UInt8.ofNat_toNat]

theorem encode_two {a b : UInt8} {v : Nat} (ha : 0xc2 ≤ a.toNat) (ha' : a.toNat < 0xe0)
    (hb : 0x80 ≤ b.toNat) (hb' : b.toNat ≤ 0xbf)
    (hv : v = a.toNat % 0x20 * 0x40 + b.toNat % 0x40) :
    String.utf8EncodeChar (Char.ofNat v) = [a, b] := by
  have hcode : (Char.ofNat v).val.toNat = v := toNat_charOfNat (.inl (by omega))
  rw [String.utf8EncodeChar, hcode, if_neg (by omega), if_pos (by omega),
    ofNat_eq_of_toNat (b := a) (by omega), ofNat_eq_of_toNat (b := b) (by omega)]

theorem encode_three {a b c : UInt8} {v : Nat} (ha : 0xe0 ≤ a.toNat) (ha' : a.toNat < 0xf0)
    (hb : (if a.toNat = 0xe0 then 0xa0 else 0x80) ≤ b.toNat)
    (hb' : b.toNat ≤ if a.toNat = 0xed then 0x9f else 0xbf) (hc : 0x80 ≤ c.toNat)
    (hc' : c.toNat ≤ 0xbf)
    (hv : v = (a.toNat % 0x10 * 0x40 + b.toNat % 0x40) * 0x40 + c.toNat % 0x40) :
    String.utf8EncodeChar (Char.ofNat v) = [a, b, c] := by
  have hbound : 0x80 ≤ b.toNat ∧ b.toNat ≤ 0xbf := by split at hb <;> split at hb' <;> omega
  have hlong : 0x800 ≤ v := by split at hb <;> omega
  have hvalid : v < 0xd800 ∨ 0xdfff < v := by split at hb' <;> omega
  have hcode : (Char.ofNat v).val.toNat = v :=
    toNat_charOfNat (hvalid.imp id fun h => ⟨h, by omega⟩)
  rw [String.utf8EncodeChar, hcode, if_neg (by omega), if_neg (by omega), if_pos (by omega),
    ofNat_eq_of_toNat (b := a) (by omega), ofNat_eq_of_toNat (b := b) (by omega),
    ofNat_eq_of_toNat (b := c) (by omega)]

theorem encode_four {a b c d : UInt8} {v : Nat} (ha : 0xf0 ≤ a.toNat) (ha' : a.toNat ≤ 0xf4)
    (hb : (if a.toNat = 0xf0 then 0x90 else 0x80) ≤ b.toNat)
    (hb' : b.toNat ≤ if a.toNat = 0xf4 then 0x8f else 0xbf) (hc : 0x80 ≤ c.toNat)
    (hc' : c.toNat ≤ 0xbf) (hd : 0x80 ≤ d.toNat) (hd' : d.toNat ≤ 0xbf)
    (hv : v = ((a.toNat % 0x08 * 0x40 + b.toNat % 0x40) * 0x40 + c.toNat % 0x40) * 0x40 +
      d.toNat % 0x40) :
    String.utf8EncodeChar (Char.ofNat v) = [a, b, c, d] := by
  have hbound : 0x80 ≤ b.toNat ∧ b.toNat ≤ 0xbf := by split at hb <;> split at hb' <;> omega
  have hlong : 0x10000 ≤ v := by split at hb <;> omega
  have hvalid : v < 0x110000 := by split at hb' <;> omega
  have hcode : (Char.ofNat v).val.toNat = v := toNat_charOfNat (.inr ⟨by omega, hvalid⟩)
  rw [String.utf8EncodeChar, hcode, if_neg (by omega), if_neg (by omega), if_neg (by omega),
    ofNat_eq_of_toNat (b := a) (by omega), ofNat_eq_of_toNat (b := b) (by omega),
    ofNat_eq_of_toNat (b := c) (by omega), ofNat_eq_of_toNat (b := d) (by omega)]

/-! ### Reading a character -/

/-- One further byte that is read. -/
theorem exists_of_follow? {n code k : Nat} {lo hi : UInt8} {bs rest : List UInt8}
    (h : follow? (n + 1) lo hi code bs = (some k, rest)) :
    ∃ x xs, bs = x :: xs ∧ lo.toNat ≤ x.toNat ∧ x.toNat ≤ hi.toNat ∧
      follow? n 0x80 0xbf (code * 0x40 + x.toNat % 0x40) xs = (some k, rest) := by
  cases bs with
  | nil => cases h
  | cons x xs =>
    rw [follow?] at h
    simp only [UInt8.le_iff_toNat_le] at h
    split at h
    · rename_i hx
      exact ⟨x, xs, rfl, hx.1, hx.2, h⟩
    · cases h

/-- The last of the further bytes that are read. -/
theorem exists_of_follow?_one {code k : Nat} {lo hi : UInt8} {bs rest : List UInt8}
    (h : follow? 1 lo hi code bs = (some k, rest)) :
    ∃ x, bs = x :: rest ∧ lo.toNat ≤ x.toNat ∧ x.toNat ≤ hi.toNat ∧
      k = code * 0x40 + x.toNat % 0x40 := by
  obtain ⟨x, xs, rfl, hlo, hhi, h⟩ := exists_of_follow? h
  cases h
  exact ⟨x, rfl, hlo, hhi, rfl⟩

/-- The kinds of first bytes, and the limits of the byte behind them. -/
theorem lead?_cases {a lo hi : UInt8} {n : Nat} (h : lead? a = some (n, lo, hi)) :
    (n = 0 ∧ a.toNat < 0x80) ∨
    (n = 1 ∧ 0xc2 ≤ a.toNat ∧ a.toNat < 0xe0 ∧ lo.toNat = 0x80 ∧ hi.toNat = 0xbf) ∨
    (n = 2 ∧ 0xe0 ≤ a.toNat ∧ a.toNat < 0xf0 ∧
      (lo.toNat = if a.toNat = 0xe0 then 0xa0 else 0x80) ∧
      hi.toNat = if a.toNat = 0xed then 0x9f else 0xbf) ∨
    (n = 3 ∧ 0xf0 ≤ a.toNat ∧ a.toNat ≤ 0xf4 ∧
      (lo.toNat = if a.toNat = 0xf0 then 0x90 else 0x80) ∧
      hi.toNat = if a.toNat = 0xf4 then 0x8f else 0xbf) := by
  rw [lead?_eq] at h
  split_ifs at h <;> cases h <;> simp <;> omega

/-- **A character that is read is written with the bytes that were taken for it.** -/
theorem cons_eq_of_next {a : UInt8} {bs rest : List UInt8} {c : Char}
    (h : next a bs = (some c, rest)) : a :: bs = String.utf8EncodeChar c ++ rest := by
  unfold next at h
  cases hlead : lead? a with
  | none =>
    rw [hlead] at h
    cases h
  | some entry =>
    obtain ⟨n, lo, hi⟩ := entry
    simp only [hlead] at h
    cases hfollow : follow? n lo hi (leadBits n a) bs with
    | mk code rest' =>
      simp only [hfollow, Prod.mk.injEq, Option.map_eq_some_iff] at h
      obtain ⟨⟨v, rfl, rfl⟩, rfl⟩ := h
      rcases lead?_cases hlead with ⟨rfl, ha⟩ | ⟨rfl, ha, ha', hlo, hhi⟩ |
        ⟨rfl, ha, ha', hlo, hhi⟩ | ⟨rfl, ha, ha', hlo, hhi⟩
      · cases hfollow
        rw [leadBits, encode_one ha]
        rfl
      · obtain ⟨x, rfl, hx, hx', hv⟩ := exists_of_follow?_one hfollow
        rw [encode_two ha ha' (hlo ▸ hx) (hhi ▸ hx') hv]
        rfl
      · obtain ⟨x, xs, rfl, hx, hx', hfollow⟩ := exists_of_follow? hfollow
        obtain ⟨y, rfl, hy, hy', hv⟩ := exists_of_follow?_one hfollow
        rw [encode_three ha ha' (hlo ▸ hx) (hhi ▸ hx') hy hy' hv]
        rfl
      · obtain ⟨x, xs, rfl, hx, hx', hfollow⟩ := exists_of_follow? hfollow
        obtain ⟨y, ys, rfl, hy, hy', hfollow⟩ := exists_of_follow? hfollow
        obtain ⟨z, rfl, hz, hz', hv⟩ := exists_of_follow?_one hfollow
        rw [encode_four ha ha' (hlo ▸ hx) (hhi ▸ hx') hy hy' hz hz' hv]
        rfl

/-- Decoding goes on behind a character that is read. -/
theorem decode?_encode (c : Char) (bs : List UInt8) :
    decode? (String.utf8EncodeChar c ++ bs) = (decode? bs).map (c :: ·) := by
  rw [decode?, chars?_encode, List.mapM_cons, decode?]
  cases (chars? bs).mapM id <;> rfl

theorem decode?_cons_of_next {a : UInt8} {bs : List UInt8} (h : (next a bs).1 = none) :
    decode? (a :: bs) = none := by
  rw [decode?, chars?, h, List.mapM_cons]
  rfl

/-- **Strict decoding accepts the bytes of a text and nothing else.** -/
theorem decode?_eq_some {bs : List UInt8} {cs : List Char} :
    decode? bs = some cs ↔ bs = bytes (String.ofList cs) := by
  rw [bytes_eq, String.toList_ofList]
  constructor
  · intro h
    induction bs using chars?.induct generalizing cs with
    | case1 =>
      rw [decode?, chars?] at h
      cases h
      rfl
    | case2 a bs ih =>
      cases hc : (next a bs).1 with
      | none =>
        rw [decode?_cons_of_next hc] at h
        cases h
      | some c =>
        have hbytes := cons_eq_of_next (Prod.ext hc rfl)
        rw [hbytes, decode?_encode] at h
        obtain ⟨ds, hds, rfl⟩ := Option.map_eq_some_iff.1 h
        rw [hbytes, List.flatMap_cons, ← ih hds]
  · rintro rfl
    induction cs with
    | nil =>
      rw [List.flatMap_nil, decode?, chars?]
      rfl
    | cons c cs ih => rw [List.flatMap_cons, decode?_encode, ih, Option.map_some]

end ShaderFilter.Text.Utf8
