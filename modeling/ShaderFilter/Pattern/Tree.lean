import ShaderFilter.Pattern
import ShaderFilter.Pattern.Mistake

/-!
# Written patterns

The text of a pattern as a tree of its parts, each with the place where it stands, and how deeply the
parts may stand in each other.
-/

namespace ShaderFilter.Pattern

/-! ### Flags -/

/-- The flags of a pattern. -/
inductive Flag where
  /-- Letters stand for both cases. -/
  | anyCase
  /-- Line starts and ends count as starts and ends. -/
  | multiLine
  /-- The dot takes line ends too. -/
  | dotAll
  /-- Repetitions take as little as they can, which is of no account here. -/
  | swapGreed
  /-- Characters are those of Unicode. -/
  | unicode
  /-- Lines end with carriage returns too. -/
  | crlf
  /-- Blanks and comments stand between the parts of a pattern. -/
  | loose
  deriving DecidableEq

/-- The flag of a letter. -/
def Flag.read? (c : Char) : Option Flag :=
  [('i', anyCase), ('m', multiLine), ('s', dotAll), ('U', swapGreed), ('u', unicode), ('R', crlf),
    ('x', loose)].lookup c

/-- What is set by flags, of which those behind a minus sign are taken away. -/
def flagState? (f : Flag) : List (Option Flag) → Option Bool
  | [] => none
  | none :: items => if some f ∈ items then some false else none
  | some g :: items => if g = f then some true else flagState? f items

/-! ### Sets -/

/-- A character in a pattern. -/
structure Literal where
  /-- The character. -/
  char : Char
  /-- Whether it is written as the number of a byte. -/
  byte : Bool
  /-- Where it stands. -/
  span : Span

/-- A short name of a class of characters. -/
inductive Shorthand where
  /-- Digits, blanks or word characters; a capital turns the class over. -/
  | letter (c : Char)
  /-- The characters with a property. -/
  | property (name : List Char)

/-- The operations between sets. -/
inductive SetOperation where
  /-- What is in both sets. -/
  | inter
  /-- What is in the left set only. -/
  | difference
  /-- What is in one set only. -/
  | symmetricDifference
  deriving DecidableEq

/-- A set in brackets or a part of one. -/
inductive SetTree where
  /-- Nothing. -/
  | empty (span : Span)
  /-- A character. -/
  | literal (l : Literal)
  /-- A range of characters. -/
  | range (first last : Literal)
  /-- A set with a name, which may be turned over. -/
  | named (negated : Bool) (s : CharSet) (span : Span)
  /-- The short name of a class. -/
  | shorthand (k : Shorthand) (span : Span)
  /-- A set in brackets, which may be turned over. -/
  | bracket (negated : Bool) (inner : SetTree) (span : Span)
  /-- Items side by side. -/
  | union (items : List SetTree) (span : Span)
  /-- An operation between two sets. -/
  | combined (op : SetOperation) (left right : SetTree)

/-- Where a set stands. -/
def SetTree.span : SetTree → Span
  | .empty span | .named _ _ span | .shorthand _ span | .bracket _ _ span | .union _ span => span
  | .literal l => l.span
  | .range first last => ⟨first.span.start, last.span.stop⟩
  | .combined _ left right => ⟨left.span.start, right.span.stop⟩

/-! ### Patterns -/

/-- A mark for a place in the text. -/
inductive Mark where
  /-- The start of the text, or of a line. -/
  | lineStart
  /-- The end of the text, or of a line. -/
  | lineEnd
  /-- The start of the text. -/
  | textStart
  /-- The end of the text. -/
  | textEnd
  /-- The edge of a word. -/
  | edge (e : WordEdge)

/-- A written pattern. -/
inductive Tree where
  /-- Nothing. -/
  | empty
  /-- Flags for the rest of the group around it. -/
  | flags (items : List (Option Flag))
  /-- A character. -/
  | literal (l : Literal)
  /-- A dot. -/
  | dot (span : Span)
  /-- A mark. -/
  | mark (m : Mark)
  /-- The short name of a class. -/
  | shorthand (k : Shorthand) (span : Span)
  /-- A set in brackets. -/
  | set (s : SetTree)
  /-- A part some number of times. -/
  | repeated (t : Tree) (least : Nat) (most : Option Nat) (span : Span)
  /-- A group whose place in the text has a number. -/
  | captured (index : Nat) (t : Tree) (span : Span)
  /-- A group with flags of its own. -/
  | group (items : List (Option Flag)) (t : Tree) (span : Span)
  /-- Parts side by side. -/
  | sequence (parts : List Tree) (span : Span)
  /-- Alternatives. -/
  | choice (parts : List Tree) (span : Span)

/-! ### Nesting -/

mutual

/-- Where the first part of a set stands that has `room` levels or more around it. -/
def SetTree.beyond? (room : Nat) : SetTree → Option Span
  | .bracket _ inner span => match room with
    | 0 => some span
    | room + 1 => inner.beyond? room
  | .union items span => match room with
    | 0 => some span
    | room + 1 => SetTree.anyBeyond? room items
  | .combined _ left right => match room with
    | 0 => some ⟨left.span.start, right.span.stop⟩
    | room + 1 => left.beyond? room <|> right.beyond? room
  | _ => none

/-- The same for the first of some sets. -/
def SetTree.anyBeyond? (room : Nat) : List SetTree → Option Span
  | [] => none
  | s :: ss => s.beyond? room <|> SetTree.anyBeyond? room ss

end

mutual

/-- Where the first part of a pattern stands that has `room` levels or more around it. -/
def Tree.beyond? (room : Nat) : Tree → Option Span
  | .set s => s.beyond? room
  | .repeated t _ _ span | .captured _ t span | .group _ t span => match room with
    | 0 => some span
    | room + 1 => t.beyond? room
  | .sequence parts span | .choice parts span => match room with
    | 0 => some span
    | room + 1 => Tree.anyBeyond? room parts
  | _ => none

/-- The same for the first of some patterns. -/
def Tree.anyBeyond? (room : Nat) : List Tree → Option Span
  | [] => none
  | t :: ts => t.beyond? room <|> Tree.anyBeyond? room ts

end

end ShaderFilter.Pattern
