import ShaderFilter.Text.Ranges

/-!
# Character sets

The sets of characters that a pattern names, as ranges of code points in ascending order, with gaps between
them. So a set is written in one way only, and is empty if it has no ranges.
-/

namespace ShaderFilter.Pattern

/-- A set of characters. -/
structure CharSet where
  /-- The first and the last code point of each range. -/
  ranges : List (Nat × Nat)
  deriving DecidableEq

namespace CharSet

/-- Whether a character is in a set. -/
def contains (s : CharSet) (c : Char) : Bool := Text.inRanges s.ranges c

/-- Enters a range into ascending ranges, with which it grows together where they meet. -/
def enter (first last : Nat) : List (Nat × Nat) → List (Nat × Nat)
  | [] => [(first, last)]
  | (a, b) :: rs =>
    if last + 1 < a then (first, last) :: (a, b) :: rs
    else if b + 1 < first then (a, b) :: enter first last rs
    else enter (min first a) (max last b) rs

/-- No character. -/
def empty : CharSet := ⟨[]⟩

/-- The characters from the first to the last one. -/
def range (first last : Char) : CharSet := ⟨[(first.toNat, last.toNat)]⟩

/-- One character. -/
def single (c : Char) : CharSet := range c c

/-- The characters of either set. -/
def union (a b : CharSet) : CharSet :=
  ⟨b.ranges.foldl (fun rs (first, last) => enter first last rs) a.ranges⟩

/-- The characters of some ranges. -/
def ofRanges (rs : List (Char × Char)) : CharSet :=
  rs.foldl (fun s (first, last) => s.union (range first last)) empty

/-- The code point before another one, where those that are no characters are left out. -/
def before (n : Nat) : Nat := if n = 0xe000 then 0xd7ff else n - 1

/-- The code point after another one, where those that are no characters are left out. -/
def after (n : Nat) : Nat := if n = 0xd7ff then 0xe000 else n + 1

/-- The gaps between ascending ranges, from a code point on. -/
def gaps (start : Nat) : List (Nat × Nat) → List (Nat × Nat)
  | [] => if start ≤ 0x10ffff then [(start, 0x10ffff)] else []
  | (a, b) :: rs => (if start < a then [(start, before a)] else []) ++ gaps (after b) rs

/-- The characters that are not in the set. -/
def complement (a : CharSet) : CharSet := ⟨gaps 0 a.ranges⟩

/-- The characters of both sets. -/
def inter (a b : CharSet) : CharSet := (a.complement.union b.complement).complement

/-- The characters of the first set that are not in the second one. -/
def difference (a b : CharSet) : CharSet := a.inter b.complement

/-- The part of a range of letters that a set holds, moved by the distance of the two cases. -/
def moved (s : CharSet) (letters : CharSet) (move : Nat → Nat) : List (Nat × Nat) :=
  (s.inter letters).ranges.map fun (first, last) => (move first, move last)

/-- A set with all of its ASCII letters in both cases. -/
def anyCase (s : CharSet) : CharSet :=
  (s.union ⟨s.moved (range 'a' 'z') (· - 32)⟩).union ⟨s.moved (range 'A' 'Z') (· + 32)⟩

/-- Whether all characters of a set are in ASCII. -/
def isAscii (s : CharSet) : Bool := s.ranges.all fun (_, last) => last < 0x80

/-- The decimal digits. -/
def digits : CharSet := range '0' '9'

/-- The white space of ASCII. -/
def spaces : CharSet := ofRanges [('\t', '\r'), (' ', ' ')]

/-- The letters and digits of ASCII, and the underscore. -/
def wordChars : CharSet := ofRanges [('0', '9'), ('A', 'Z'), ('_', '_'), ('a', 'z')]

/-- The ASCII sets that have a name. -/
def named : List (String × CharSet) :=
  [("alnum", ofRanges [('0', '9'), ('A', 'Z'), ('a', 'z')]),
    ("alpha", ofRanges [('A', 'Z'), ('a', 'z')]),
    ("ascii", range '\x00' '\x7f'),
    ("blank", ofRanges [('\t', '\t'), (' ', ' ')]),
    ("cntrl", ofRanges [('\x00', '\x1f'), ('\x7f', '\x7f')]),
    ("digit", digits),
    ("graph", range '!' '~'),
    ("lower", range 'a' 'z'),
    ("print", range ' ' '~'),
    ("punct", ofRanges [('!', '/'), (':', '@'), ('[', '\x60'), ('\x7b', '~')]),
    ("space", spaces),
    ("upper", range 'A' 'Z'),
    ("word", wordChars),
    ("xdigit", ofRanges [('0', '9'), ('A', 'F'), ('a', 'f')])]

end CharSet

end ShaderFilter.Pattern
