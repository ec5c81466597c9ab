import ShaderFilter.Pattern.CharSet

/-!
# Patterns

Regular expressions. A pattern takes texts; some of its parts take none and demand something of the place
where they stand.
-/

namespace ShaderFilter

namespace Pattern

/-- Where a place lies beside the words of a text. -/
inductive WordEdge where
  /-- Between a word character and another one. -/
  | boundary
  /-- Not at a boundary. -/
  | noBoundary
  /-- In front of a word. -/
  | start
  /-- Behind a word. -/
  | stop
  /-- Not behind a word character. -/
  | startHalf
  /-- Not in front of a word character. -/
  | stopHalf
  deriving DecidableEq

/-- Whether a place is at an edge, by whether word characters are before and after it. -/
def WordEdge.holds : WordEdge → (before after : Bool) → Bool
  | .boundary, before, after => before != after
  | .noBoundary, before, after => before == after
  | .start, before, after => !before && after
  | .stop, before, after => before && !after
  | .startHalf, before, _ => !before
  | .stopHalf, _, after => !after

/-- What a pattern demands of a place without taking characters. -/
inductive Assertion where
  /-- The start of the text. -/
  | textStart
  /-- The end of the text. -/
  | textEnd
  /-- The start of a line; lines may end with a carriage return too. -/
  | lineStart (crlf : Bool)
  /-- The end of a line; lines may end with a carriage return too. -/
  | lineEnd (crlf : Bool)
  /-- An edge of a word, which is made of ASCII characters or also of other ones. -/
  | edge (e : WordEdge) (unicode : Bool)
  deriving DecidableEq

/-- Whether a place between two characters is as demanded. Words are known in ASCII only. -/
def Assertion.holds (a : Assertion) (before after : Option Char) : Bool :=
  match a with
  | .textStart => before == none
  | .textEnd => after == none
  | .lineStart false => before == none || before == some '\n'
  | .lineStart true =>
    before == none || before == some '\n' || (before == some '\r' && after != some '\n')
  | .lineEnd false => after == none || after == some '\n'
  | .lineEnd true =>
    after == none || after == some '\r' || (after == some '\n' && before != some '\r')
  | .edge e _ => e.holds (before.any CharSet.wordChars.contains) (after.any CharSet.wordChars.contains)

end Pattern

open Pattern (Assertion CharSet)

/-- A regular expression. -/
inductive Pattern where
  /-- The empty text. -/
  | skip
  /-- A text. -/
  | text (cs : List Char)
  /-- One character of a set. -/
  | one (s : CharSet)
  /-- The empty text at a place of some kind. -/
  | check (a : Assertion)
  /-- One pattern and then another one. -/
  | seq (p q : Pattern)
  /-- One of two patterns. -/
  | either (p q : Pattern)
  /-- A pattern some number of times. -/
  | repeated (p : Pattern) (least : Nat) (most : Option Nat)
  /-- A pattern whose place in the text has a number. -/
  | captured (index : Nat) (p : Pattern)
  deriving DecidableEq

end ShaderFilter
