import ShaderFilter.Text.Utf8
import ShaderFilter.Proofs.Text.ByteOrder
import ShaderFilter.Proofs.Text.Lines

/-!
# Lossy decoding

Bytes below `0x80` are characters of their own, and no other character has such a byte: neither
does a longer sequence take one up (`chars?_append`), nor do the bytes of one make a character
that could be mistaken for one of these (`le_toNat_of_next`). So wherever bytes are cut at such a
byte, the parts can be decoded one by one, however damaged they are. Line feeds and carriage
returns are such bytes: the lines of a decoded text are the decoded lines of its bytes
(`ByteLined.decode`).

Bytes that are a text are decoded to it (`decodeLossy_bytes`), so nothing is lost there.
-/

namespace ShaderFilter.Text

namespace Utf8

/-! ### First bytes and further bytes -/

/-- What the first byte of a character says, by its number. -/
theorem lead?_eq (b : UInt8) :
    lead? b =
      if b.toNat < 0x80 then some (0, 0x80, 0xbf)
      else if b.toNat < 0xc2 then none
      else if b.toNat < 0xe0 then some (1, 0x80, 0xbf)
      else if b.toNat = 0xe0 then some (2, 0xa0, 0xbf)
      else if b.toNat = 0xed then some (2, 0x80, 0x9f)
      else if b.toNat < 0xf0 then some (2, 0x80, 0xbf)
      else if b.toNat = 0xf0 then some (3, 0x90, 0xbf)
      else if b.toNat < 0xf4 then some (3, 0x80, 0xbf)
      else if b.toNat = 0xf4 then some (3, 0x80, 0x8f)
      else none := by
  simp only [lead?, UInt8.lt_iff_toNat_lt, ← UInt8.toNat_inj, UInt8.reduceToNat]

/-- A first byte stands alone and is below `0x80`, or it needs further bytes from `0x80` on; the
least of these make a code from `0x80` on. -/
theorem bounds_of_lead? {b lo hi : UInt8} {n : Nat} (h : lead? b = some (n, lo, hi)) :
    0x80 ≤ lo.toNat ∧ hi.toNat ≤ 0xbf ∧
      ((n = 0 ∧ b.toNat < 0x80) ∨
        ∃ m, n = m + 1 ∧ 0x80 ≤ b.toNat ∧
          0x80 ≤ (leadBits n b * 0x40 + lo.toNat % 0x40) * 0x40 ^ m) := by
  rw [lead?_eq] at h
  split_ifs at h <;> cases h <;> simp [leadBits] <;> omega

theorem lead?_ascii {b : UInt8} (hb : b.toNat < 0x80) : lead? b = some (0, 0x80, 0xbf) := by
  rw [lead?_eq, if_pos hb]

/-- A byte below `0x80` is a character of its own. -/
theorem next_ascii {b : UInt8} (hb : b.toNat < 0x80) (bs : List UInt8) :
    next b bs = (some (Char.ofNat b.toNat), bs) := by
  simp [next, lead?_ascii hb, follow?, leadBits]

/-- Further bytes end before a byte below `0x80`. -/
theorem follow?_append {n code : Nat} {lo hi b : UInt8} (hlo : 0x80 ≤ lo.toNat)
    (hb : b.toNat < 0x80) (as bs : List UInt8) :
    follow? n lo hi code (as ++ b :: bs) =
      ((follow? n lo hi code as).1, (follow? n lo hi code as).2 ++ b :: bs) := by
  fun_induction follow? n lo hi code as with
  | case1 => rfl
  | case2 =>
    rw [List.nil_append, follow?, if_neg]
    simp only [UInt8.le_iff_toNat_le]
    omega
  | case3 n lo hi code a as ha ih => rw [List.cons_append, follow?, if_pos ha, ih (by decide)]
  | case4 n lo hi code a as ha => rw [List.cons_append, follow?, if_neg ha]

theorem next_append {b : UInt8} (hb : b.toNat < 0x80) (a : UInt8) (as bs : List UInt8) :
    next a (as ++ b :: bs) = ((next a as).1, (next a as).2 ++ b :: bs) := by
  unfold next
  cases h : lead? a with
  | none => rfl
  | some entry =>
    obtain ⟨n, lo, hi⟩ := entry
    simp only [follow?_append (bounds_of_lead? h).1 hb]

/-- **Bytes can be cut at a byte below `0x80`** and be decoded in parts. -/
theorem chars?_append {b : UInt8} (hb : b.toNat < 0x80) (as bs : List UInt8) :
    chars? (as ++ b :: bs) = chars? as ++ some (Char.ofNat b.toNat) :: chars? bs := by
  fun_induction chars? as with
  | case1 => rw [List.nil_append, chars?, next_ascii hb, List.nil_append]
  | case2 a as ih => rw [List.cons_append, chars?, next_append hb, ih, List.cons_append]

theorem decodeLossy_append {b : UInt8} (hb : b.toNat < 0x80) (as bs : List UInt8) :
    decodeLossy (as ++ b :: bs) = decodeLossy as ++ Char.ofNat b.toNat :: decodeLossy bs := by
  simp [decodeLossy, chars?_append hb]

/-! ### What comes of longer sequences -/

theorem le_of_follow? {n code k : Nat} {lo hi : UInt8} {bs rest : List UInt8}
    (hlo : 0x80 ≤ lo.toNat) (hhi : hi.toNat ≤ 0xbf)
    (h : follow? (n + 1) lo hi code bs = (some k, rest)) :
    (code * 0x40 + lo.toNat % 0x40) * 0x40 ^ n ≤ k := by
  induction n generalizing lo hi code bs with
  | zero =>
    cases bs with
    | nil => cases h
    | cons b bs =>
      simp only [follow?, UInt8.le_iff_toNat_le] at h
      split at h
      · cases h
        omega
      · cases h
  | succ n ih =>
    cases bs with
    | nil => cases h
    | cons b bs =>
      rw [follow?] at h
      simp only [UInt8.le_iff_toNat_le] at h
      split at h
      · refine Nat.le_trans ?_ (ih (by decide) (by decide) h)
        rw [Nat.pow_succ', ← Nat.mul_assoc]
        refine Nat.mul_le_mul_right _ ?_
        omega
      · cases h

theorem toNat_charOfNat {k : Nat} (h : k.isValidChar) : (Char.ofNat k).toNat = k := by
  rw [Char.ofNat, dif_pos h]
  rfl

/-- A character below `0x80` other than zero is decoded from its own byte only. -/
theorem toNat_of_next {b : UInt8} {bs : List UInt8} {c : Char}
    (h : (next b bs).1.getD '\ufffd' = c) (h0 : c ≠ '\x00') (hc : c.toNat < 0x80) :
    b.toNat = c.toNat := by
  by_cases hb : b.toNat < 0x80
  · have hvalid : b.toNat.isValidChar := .inl (by omega)
    rw [next_ascii hb, Option.getD_some] at h
    rw [← h, toNat_charOfNat hvalid]
  · exfalso
    have hreplaced : c ≠ '\ufffd' := by
      rintro rfl
      revert hc
      decide
    unfold next at h
    cases hlead : lead? b with
    | none =>
      rw [hlead] at h
      exact hreplaced h.symm
    | some entry =>
      obtain ⟨n, lo, hi⟩ := entry
      obtain ⟨hlo, hhi, ⟨-, hsmall⟩ | ⟨m, rfl, -, hleast⟩⟩ := bounds_of_lead? hlead
      · exact hb hsmall
      · simp only [hlead] at h
        cases hfollow : follow? (m + 1) lo hi (leadBits (m + 1) b) bs with
        | mk code rest =>
          rw [hfollow] at h
          cases code with
          | none => exact hreplaced h.symm
          | some k =>
            have hk := Nat.le_trans hleast (le_of_follow? hlo hhi hfollow)
            change Char.ofNat k = c at h
            by_cases hvalid : k.isValidChar
            · rw [← h, toNat_charOfNat hvalid] at hc
              omega
            · rw [Char.ofNat, dif_neg hvalid] at h
              exact h0 h.symm

/-- What is left after a character are bytes from behind it. -/
theorem suffix_follow? (n : Nat) (lo hi : UInt8) (code : Nat) (bs : List UInt8) :
    (follow? n lo hi code bs).2 <:+ bs := by
  fun_induction follow? n lo hi code bs with
  | case1 => exact List.suffix_refl _
  | case2 => exact List.suffix_refl _
  | case3 n lo hi code b bs hb ih => exact ih.trans (List.suffix_cons b bs)
  | case4 => exact List.suffix_refl _

theorem suffix_next (b : UInt8) (bs : List UInt8) : (next b bs).2 <:+ bs := by
  unfold next
  split
  · exact List.suffix_refl _
  · exact suffix_follow? ..

/-- Every decoded character below `0x80` other than zero has its own byte. -/
theorem mem_of_mem_decodeLossy {bs : List UInt8} {c : Char} (h : c ∈ decodeLossy bs)
    (h0 : c ≠ '\x00') (hc : c.toNat < 0x80) : UInt8.ofNat c.toNat ∈ bs := by
  unfold decodeLossy at h
  fun_induction chars? bs with
  | case1 => cases h
  | case2 b bs ih =>
    rw [List.map_cons, List.mem_cons] at h
    rcases h with h | h
    · rw [← toNat_of_next h.symm h0 hc, UInt8.ofNat_toNat]
      exact List.mem_cons_self
    · exact List.mem_cons_of_mem _ ((suffix_next b bs).subset (ih h))

/-! ### Bytes that are a text -/

theorem toNat_ofNat {x : Nat} (hx : x < 256) : (UInt8.ofNat x).toNat = x :=
  UInt8.toNat_ofNat_of_lt' hx

/-- A further byte that fits is read onto the payload. -/
theorem follow?_ofNat {n code x : Nat} {lo hi : UInt8} (hx : x < 256) (hlo : lo.toNat ≤ x)
    (hhi : x ≤ hi.toNat) (bs : List UInt8) :
    follow? (n + 1) lo hi code (UInt8.ofNat x :: bs) =
      follow? n 0x80 0xbf (code * 0x40 + x % 0x40) bs := by
  have hb : lo ≤ UInt8.ofNat x ∧ UInt8.ofNat x ≤ hi := by
    simp only [UInt8.le_iff_toNat_le, toNat_ofNat hx]
    exact ⟨hlo, hhi⟩
  rw [follow?, if_pos hb, toNat_ofNat hx]

theorem follow?_tail {n code x : Nat} (hx : x < 64) (bs : List UInt8) :
    follow? (n + 1) 0x80 0xbf code (UInt8.ofNat (x + 128) :: bs) =
      follow? n 0x80 0xbf (code * 0x40 + x) bs := by
  rw [follow?_ofNat (by omega) (by simp) (by simp; omega)]
  congr 2
  omega

theorem lead?_two : ∀ x < 32, 2 ≤ x →
    lead? (UInt8.ofNat (x + 192)) = some (1, 0x80, 0xbf) := by decide

theorem lead?_three : ∀ x < 16, lead? (UInt8.ofNat (x + 224)) =
    some (2, if x = 0 then 0xa0 else 0x80, if x = 13 then 0x9f else 0xbf) := by decide

theorem lead?_four : ∀ x < 5, lead? (UInt8.ofNat (x + 240)) =
    some (3, if x = 0 then 0x90 else 0x80, if x = 4 then 0x8f else 0xbf) := by decide

theorem next_two {v : Nat} (h : 0x80 ≤ v) (h' : v < 0x800) (bs : List UInt8) :
    next (UInt8.ofNat (v / 64 % 32 + 192)) (UInt8.ofNat (v % 64 + 128) :: bs) =
      (some (Char.ofNat v), bs) := by
  have hcode : leadBits 1 (UInt8.ofNat (v / 64 % 32 + 192)) * 64 + v % 64 = v := by
    rw [leadBits, toNat_ofNat (by omega)]
    omega
  simp only [next, lead?_two (v / 64 % 32) (by omega) (by omega)]
  rw [follow?_tail (by omega), hcode]
  rfl

theorem next_three {v : Nat} (h : 0x800 ≤ v) (h' : v < 0x10000) (hv : v < 0xd800 ∨ 0xdfff < v)
    (bs : List UInt8) :
    next (UInt8.ofNat (v / 4096 % 16 + 224))
        (UInt8.ofNat (v / 64 % 64 + 128) :: UInt8.ofNat (v % 64 + 128) :: bs) =
      (some (Char.ofNat v), bs) := by
  have hcode : (leadBits 2 (UInt8.ofNat (v / 4096 % 16 + 224)) * 64 +
      (v / 64 % 64 + 128) % 64) * 64 + v % 64 = v := by
    rw [leadBits, toNat_ofNat (by omega)]
    omega
  -- Overlong forms and surrogates are what the narrower limits leave out.
  have hlo : (if v / 4096 % 16 = 0 then 0xa0 else 0x80 : UInt8).toNat ≤ v / 64 % 64 + 128 := by
    split <;> simp
    omega
  have hhi : v / 64 % 64 + 128 ≤ (if v / 4096 % 16 = 13 then 0x9f else 0xbf : UInt8).toNat := by
    split <;> simp <;> omega
  simp only [next, lead?_three (v / 4096 % 16) (by omega)]
  rw [follow?_ofNat (by omega) hlo hhi, follow?_tail (by omega), hcode]
  rfl

theorem next_four {v : Nat} (h : 0x10000 ≤ v) (h' : v < 0x110000) (bs : List UInt8) :
    next (UInt8.ofNat (v / 262144 % 8 + 240))
        (UInt8.ofNat (v / 4096 % 64 + 128) :: UInt8.ofNat (v / 64 % 64 + 128) ::
          UInt8.ofNat (v % 64 + 128) :: bs) =
      (some (Char.ofNat v), bs) := by
  have hlast (b : UInt8) : leadBits 3 b = b.toNat % 8 := rfl
  have hcode : ((leadBits 3 (UInt8.ofNat (v / 262144 % 8 + 240)) * 64 +
      (v / 4096 % 64 + 128) % 64) * 64 + v / 64 % 64) * 64 + v % 64 = v := by
    rw [hlast, toNat_ofNat (by omega)]
    omega
  have hlo : (if v / 262144 % 8 = 0 then 0x90 else 0x80 : UInt8).toNat ≤
      v / 4096 % 64 + 128 := by
    split <;> simp
    omega
  have hhi : v / 4096 % 64 + 128 ≤
      (if v / 262144 % 8 = 4 then 0x8f else 0xbf : UInt8).toNat := by
    split <;> simp <;> omega
  simp only [next, lead?_four (v / 262144 % 8) (by omega)]
  rw [follow?_ofNat (by omega) hlo hhi, follow?_tail (by omega), follow?_tail (by omega), hcode]
  rfl

/-- The bytes of a character are decoded to it, whatever comes after them. -/
theorem chars?_encode (c : Char) (bs : List UInt8) :
    chars? (String.utf8EncodeChar c ++ bs) = some c :: chars? bs := by
  have hvalid : c.val.toNat < 0xd800 ∨ 0xdfff < c.val.toNat ∧ c.val.toNat < 0x110000 := c.valid
  have hc : Char.ofNat c.val.toNat = c := Char.ofNat_toNat c
  simp only [String.utf8EncodeChar]
  generalize c.val.toNat = v at *
  split_ifs with h1 h2 h3
  · have hto : (UInt8.ofNat v).toNat = v := toNat_ofNat (by omega)
    rw [List.singleton_append, chars?, next_ascii (by omega), hto, hc]
  · simp only [List.cons_append, List.nil_append]
    rw [chars?, next_two (by omega) (by omega), hc]
  · simp only [List.cons_append, List.nil_append]
    rw [chars?, next_three (by omega) (by omega) (by omega), hc]
  · simp only [List.cons_append, List.nil_append]
    rw [chars?, next_four (by omega) (by omega), hc]

/-- **Bytes that are a text are decoded to it.** -/
theorem decodeLossy_bytes (s : String) : decodeLossy (bytes s) = s.toList := by
  rw [bytes_eq, decodeLossy]
  induction s.toList with
  | nil => rw [List.flatMap_nil, chars?, List.map_nil]
  | cons c cs ih =>
    rw [List.flatMap_cons, chars?_encode, List.map_cons, Option.getD_some, ih]

end Utf8

/-! ### The lines of bytes -/

/-- The bytes of a terminator. -/
def Terminator.bytes : Terminator → List UInt8
  | .feed => [0x0a]
  | .pair => [0x0d, 0x0a]
  | .carriage => [0x0d]

/-- No byte of `p` ends a line. -/
def PlainBytes (p : List UInt8) : Prop := ∀ b ∈ p, b ≠ 0x0a ∧ b ≠ 0x0d

/-- `ps` are the lines of the bytes `bs`, none of them decoded. -/
inductive ByteLined : List UInt8 → List (List UInt8) → Prop where
  /-- No bytes have no lines. -/
  | nil : ByteLined [] []
  /-- The end of the bytes ends a last line that is not empty. -/
  | last {p : List UInt8} : p ≠ [] → PlainBytes p → ByteLined p [p]
  /-- A line with its terminator. A carriage return before a line feed is not one alone. -/
  | line {p bs : List UInt8} {ps : List (List UInt8)} (t : Terminator) : PlainBytes p →
      (t = .carriage → bs.head? ≠ some 0x0a) → ByteLined bs ps →
      ByteLined (p ++ (t.bytes ++ bs)) (p :: ps)

/-- Puts `b` in front of the first line, which it starts if there is none. -/
def extendFirstBytes (b : UInt8) : List (List UInt8) → List (List UInt8)
  | [] => [[b]]
  | p :: ps => (b :: p) :: ps

/-- The lines of bytes, without their terminators and none of them decoded. -/
def byteLines : List UInt8 → List (List UInt8)
  | [] => []
  | [b] => if b = 0x0a ∨ b = 0x0d then [[]] else [[b]]
  | b :: c :: bs =>
    if b = 0x0d ∧ c = 0x0a then [] :: byteLines bs
    else if b = 0x0a ∨ b = 0x0d then [] :: byteLines (c :: bs)
    else extendFirstBytes b (byteLines (c :: bs))

theorem plainBytes_nil : PlainBytes [] := List.forall_mem_nil _

theorem plainBytes_cons {b : UInt8} {p : List UInt8} :
    PlainBytes (b :: p) ↔ (b ≠ 0x0a ∧ b ≠ 0x0d) ∧ PlainBytes p := List.forall_mem_cons

theorem ByteLined.extendFirst {b : UInt8} {bs : List UInt8} {ps : List (List UInt8)}
    (hb : b ≠ 0x0a ∧ b ≠ 0x0d) (h : ByteLined bs ps) :
    ByteLined (b :: bs) (extendFirstBytes b ps) := by
  cases h with
  | nil => exact .last (by simp) (plainBytes_cons.2 ⟨hb, plainBytes_nil⟩)
  | last _ hp => exact .last (by simp) (plainBytes_cons.2 ⟨hb, hp⟩)
  | line t hp ht h => exact .line (p := b :: _) t (plainBytes_cons.2 ⟨hb, hp⟩) ht h

theorem byteLined_byteLines (bs : List UInt8) : ByteLined bs (byteLines bs) := by
  fun_induction byteLines bs with
  | case1 => exact .nil
  | case2 b hb =>
    rcases hb with rfl | rfl
    · exact .line (p := []) .feed plainBytes_nil nofun .nil
    · exact .line (p := []) .carriage plainBytes_nil nofun .nil
  | case3 b hb => exact .last (by simp) (plainBytes_cons.2 ⟨not_or.1 hb, plainBytes_nil⟩)
  | case4 b c bs hpair ih =>
    obtain ⟨rfl, rfl⟩ := hpair
    exact .line (p := []) .pair plainBytes_nil nofun ih
  | case5 b c bs hpair hb ih =>
    rcases hb with rfl | rfl
    · exact .line (p := []) .feed plainBytes_nil nofun ih
    · exact .line (p := []) .carriage plainBytes_nil
        (fun _ hc => hpair ⟨rfl, Option.some.inj hc⟩) ih
  | case6 b c bs hpair hb ih => exact ih.extendFirst (not_or.1 hb)

/-- A way to make a text of bytes under which bytes below `0x80` stay characters of their own, and
terminators come of nothing else. -/
structure KeepsLines (f : List UInt8 → List Char) : Prop where
  /-- No bytes make no characters. -/
  nil : f [] = []
  /-- Behind a byte below `0x80` the text goes on as if it started there. -/
  append {b : UInt8} : b.toNat < 0x80 → ∀ as bs, f (as ++ b :: bs) = f as ++ Char.ofNat b.toNat :: f bs
  /-- There is a first character, and if it ends a line then the first byte does. -/
  cons (b : UInt8) (bs : List UInt8) : ∃ c cs, f (b :: bs) = c :: cs ∧ (c = '\n' → b = 0x0a)
  /-- Bytes that end no line make characters that end no line. -/
  plain {p : List UInt8} : PlainBytes p → Plain (f p)

theorem KeepsLines.append_terminator {f : List UInt8 → List Char} (hf : KeepsLines f)
    (t : Terminator) (p bs : List UInt8) : f (p ++ (t.bytes ++ bs)) = f p ++ (t.chars ++ f bs) := by
  have hfeed (as bs : List UInt8) : f (as ++ 0x0a :: bs) = f as ++ '\n' :: f bs :=
    hf.append (by decide) as bs
  have hcarriage (as bs : List UInt8) : f (as ++ 0x0d :: bs) = f as ++ '\r' :: f bs :=
    hf.append (by decide) as bs
  cases t with
  | feed => exact hfeed p bs
  | carriage => exact hcarriage p bs
  | pair =>
    have hafter : f (0x0a :: bs) = '\n' :: f bs := by simpa [hf.nil] using hfeed [] bs
    simp only [Terminator.bytes, Terminator.chars, List.cons_append, List.nil_append, hcarriage,
      hafter]

/-- The lines of bytes become the lines of the text. -/
theorem ByteLined.lined {f : List UInt8 → List Char} (hf : KeepsLines f) {bs : List UInt8}
    {ps : List (List UInt8)} (h : ByteLined bs ps) : Lined (f bs) (ps.map f) := by
  induction h with
  | nil =>
    rw [hf.nil]
    exact .nil
  | @last p hne hp =>
    obtain ⟨b, p, rfl⟩ := List.exists_cons_of_ne_nil hne
    obtain ⟨c, cs, hc, -⟩ := hf.cons b p
    exact .last (by simp [hc]) (hf.plain hp)
  | @line p bs ps t hp ht _ ih =>
    rw [hf.append_terminator]
    refine .line t (hf.plain hp) (fun hcarriage hfeed => ?_) ih
    cases bs with
    | nil => simp [hf.nil] at hfeed
    | cons b bs =>
      obtain ⟨c, cs, hc, hb⟩ := hf.cons b bs
      rw [hc] at hfeed
      exact ht hcarriage (congrArg some (hb (Option.some.inj hfeed)))

theorem keepsLines_decodeLossy : KeepsLines Utf8.decodeLossy where
  nil := by simp [Utf8.decodeLossy, Utf8.chars?]
  append hb := Utf8.decodeLossy_append hb
  cons b bs := by
    refine ⟨_, _, by rw [Utf8.decodeLossy, Utf8.chars?, List.map_cons], fun h => ?_⟩
    exact UInt8.toNat_inj.1 (Utf8.toNat_of_next h (by decide) (by decide))
  plain {p} hp c hc := by
    constructor <;> rintro rfl
    · exact (hp _ (Utf8.mem_of_mem_decodeLossy hc (by decide) (by decide))).1 rfl
    · exact (hp _ (Utf8.mem_of_mem_decodeLossy hc (by decide) (by decide))).2 rfl

/-- A byte as the character with its number. -/
def byteChar (b : UInt8) : Char := Char.ofNat b.toNat

theorem byteChar_injective : Function.Injective byteChar := by
  intro a b h
  have ha := Utf8.toNat_charOfNat (.inl (Nat.lt_trans a.toNat_lt (by decide)))
  have hb := Utf8.toNat_charOfNat (.inl (Nat.lt_trans b.toNat_lt (by decide)))
  rw [← UInt8.toNat_inj, ← ha, ← hb]
  exact congrArg Char.toNat h

theorem keepsLines_byteChar : KeepsLines (List.map byteChar) where
  nil := rfl
  append _ as bs := List.map_append
  cons b bs := ⟨_, _, rfl, fun h => byteChar_injective (show byteChar b = byteChar 0x0a from h)⟩
  plain {p} hp := by
    refine List.forall_mem_map.2 fun b hb => ⟨fun h => ?_, fun h => ?_⟩
    · exact (hp b hb).1 (byteChar_injective (show byteChar b = byteChar 0x0a from h))
    · exact (hp b hb).2 (byteChar_injective (show byteChar b = byteChar 0x0d from h))

/-- **The lines of bytes are what `byteLines` finds, and nothing else.** -/
theorem byteLined_iff {bs : List UInt8} {ps : List (List UInt8)} :
    ByteLined bs ps ↔ ps = byteLines bs := by
  constructor
  · intro h
    have hlines := lined_iff.1 (h.lined keepsLines_byteChar)
    have hfound := lined_iff.1 ((byteLined_byteLines bs).lined keepsLines_byteChar)
    exact List.map_injective_iff.2 (List.map_injective_iff.2 byteChar_injective)
      (hlines.trans hfound.symm)
  · rintro rfl
    exact byteLined_byteLines bs

/-- **Decoding keeps the lines.** The lines of decoded bytes are the lines of the bytes, each
decoded by itself. -/
theorem lineList_decodeLossy (bs : List UInt8) :
    lineList (Utf8.decodeLossy bs) = (byteLines bs).map Utf8.decodeLossy :=
  (lined_iff.1 ((byteLined_byteLines bs).lined keepsLines_decodeLossy)).symm

end ShaderFilter.Text
