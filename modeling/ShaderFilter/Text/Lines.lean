/-!
# Lines

A line is ended by a line feed, by a carriage return, or by a carriage return with a line feed
directly after it. The end of the text ends a last line that is not empty, so a terminator at the
end of the text starts no further line.
-/

namespace ShaderFilter.Text

/-- Puts `c` in front of the first line, which it starts if there is none. -/
def extendFirst (c : Char) : List (List Char) → List (List Char)
  | [] => [[c]]
  | l :: ls => (c :: l) :: ls

/-- The lines of a text, without their terminators. -/
def lineList : List Char → List (List Char)
  | [] => []
  | '\r' :: '\n' :: cs => [] :: lineList cs
  | c :: cs => if c = '\n' ∨ c = '\r' then [] :: lineList cs else extendFirst c (lineList cs)

/-- The lines of a text, without their terminators. -/
def lines (text : String) : List String := (lineList text.toList).map String.ofList

/-- The number of lines of a text in which a line feed alone ends a line. -/
def countLines (text : String) : Nat :=
  let cs := text.toList
  cs.count '\n' + match cs.getLast? with
    | none => 0
    | some c => if c = '\n' then 0 else 1

end ShaderFilter.Text
