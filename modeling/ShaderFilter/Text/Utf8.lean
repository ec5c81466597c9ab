/-!
# UTF-8

Decoding of bytes. Strict decoding refuses what is not well formed; lossy decoding puts one
replacement character in the place of each maximal part that cannot be continued to a character.
-/

namespace ShaderFilter.Text.Utf8

/-- The bytes that may follow `b`, the first byte of a character of `n + 1` bytes: the count `n` and
the least and greatest second byte. -/
def lead? (b : UInt8) : Option (Nat × UInt8 × UInt8) :=
  if b < 0x80 then some (0, 0x80, 0xbf)
  else if b < 0xc2 then none
  else if b < 0xe0 then some (1, 0x80, 0xbf)
  else if b = 0xe0 then some (2, 0xa0, 0xbf)
  else if b = 0xed then some (2, 0x80, 0x9f)
  else if b < 0xf0 then some (2, 0x80, 0xbf)
  else if b = 0xf0 then some (3, 0x90, 0xbf)
  else if b < 0xf4 then some (3, 0x80, 0xbf)
  else if b = 0xf4 then some (3, 0x80, 0x8f)
  else none

/-- The payload of a first byte before `n` further bytes. -/
def leadBits (n : Nat) (b : UInt8) : Nat :=
  match n with
  | 0 => b.toNat
  | 1 => b.toNat % 0x20
  | 2 => b.toNat % 0x10
  | _ => b.toNat % 0x08

/-- Reads up to `n` further bytes, the first between `lo` and `hi`, onto the payload `code`. Gives the
code point, or none where a byte does not fit, and the bytes that are left. -/
def follow? : (n : Nat) → (lo hi : UInt8) → (code : Nat) → List UInt8 → Option Nat × List UInt8
  | 0, _, _, code, bs => (some code, bs)
  | _ + 1, _, _, _, [] => (none, [])
  | n + 1, lo, hi, code, b :: bs =>
    if lo ≤ b ∧ b ≤ hi then follow? n 0x80 0xbf (code * 0x40 + b.toNat % 0x40) bs
    else (none, b :: bs)

theorem length_follow?_le (n : Nat) (lo hi : UInt8) (code : Nat) (bs : List UInt8) :
    (follow? n lo hi code bs).2.length ≤ bs.length := by
  fun_induction follow? n lo hi code bs with
  | case1 => simp
  | case2 => simp
  | case3 _ _ _ _ _ _ _ ih => simp; omega
  | case4 => simp

/-- The first character of `b :: bs`, or none where its bytes are not well formed, and the bytes after
it. -/
def next (b : UInt8) (bs : List UInt8) : Option Char × List UInt8 :=
  match lead? b with
  | none => (none, bs)
  | some (n, lo, hi) =>
    let (code, rest) := follow? n lo hi (leadBits n b) bs
    (code.map Char.ofNat, rest)

theorem length_next_le (b : UInt8) (bs : List UInt8) : (next b bs).2.length ≤ bs.length := by
  unfold next
  split
  · simp
  · exact length_follow?_le ..

/-- The characters of `bs`, with none for each part that is not well formed. -/
def chars? : List UInt8 → List (Option Char)
  | [] => []
  | b :: bs => (next b bs).1 :: chars? (next b bs).2
termination_by bs => bs.length
decreasing_by have := length_next_le b bs; simp; omega

/-- Lossy decoding. -/
def decodeLossy (bs : List UInt8) : List Char := (chars? bs).map (·.getD '\ufffd')

/-- Strict decoding. -/
def decode? (bs : List UInt8) : Option (List Char) := (chars? bs).mapM id

end ShaderFilter.Text.Utf8
