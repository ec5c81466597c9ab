/-!
# Blanks

Removing blanks from both ends of a text. Two classes of blanks are in use: the plain space alone,
around the fields of a directive, and every character with the Unicode property `White_Space`,
around a number.
-/

namespace ShaderFilter.Text

/-- The characters with the Unicode property `White_Space`. -/
def isBlank (c : Char) : Bool :=
  ('\x09' ≤ c && c ≤ '\x0d') || c == ' ' || c == '\u0085' || c == '\u00a0' || c == '\u1680' ||
    ('\u2000' ≤ c && c ≤ '\u200a') || c == '\u2028' || c == '\u2029' || c == '\u202f' ||
    c == '\u205f' || c == '\u3000'

/-- The plain space. -/
def isSpace (c : Char) : Bool := c == ' '

/-- `cs` without the characters of the class `p` at its two ends. -/
def strip (p : Char → Bool) (cs : List Char) : List Char :=
  ((cs.dropWhile p).reverse.dropWhile p).reverse

/-- Nothing is removed where both ends are outside the class. -/
theorem strip_eq_self {p : Char → Bool} {cs : List Char} (hhead : ∀ c ∈ cs.head?, p c = false)
    (hlast : ∀ c ∈ cs.getLast?, p c = false) : strip p cs = cs := by
  have drop_self : ∀ l : List Char, (∀ c ∈ l.head?, p c = false) → l.dropWhile p = l := by
    intro l hl
    cases l with
    | nil => rfl
    | cons c r => simp [hl c (by simp)]
  rw [strip, drop_self cs hhead, drop_self cs.reverse (by simpa using hlast), List.reverse_reverse]

end ShaderFilter.Text
