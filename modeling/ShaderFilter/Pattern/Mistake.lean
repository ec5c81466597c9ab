import ShaderFilter.Text.Fields

/-!
# Mistakes in patterns

Why the text of a pattern is refused. A message shows the text with the place of the mistake marked below
it.
-/

namespace ShaderFilter.Pattern

/-- Why the text of a pattern is refused. -/
inductive Cause where
  /-- An escape in brackets stands for no characters. -/
  | bracketEscape
  /-- A range ends before it starts. -/
  | rangeOrder
  /-- An end of a range is not a character. -/
  | rangeEnd
  /-- Brackets are not closed. -/
  | bracketOpen
  /-- A number is missing. -/
  | noDecimal
  /-- A number is too great. -/
  | badDecimal
  /-- The number of a character is missing. -/
  | noHex
  /-- There is no character with the number. -/
  | badHex
  /-- A character is not a hexadecimal digit. -/
  | badHexDigit
  /-- The text ends in an escape. -/
  | escapeOpen
  /-- There is no such escape. -/
  | unknownEscape
  /-- A minus sign is followed by no flag. -/
  | danglingMinus
  /-- A flag is given twice. -/
  | repeatedFlag
  /-- There is a second minus sign. -/
  | repeatedMinus
  /-- The text ends in flags. -/
  | flagsOpen
  /-- There is no such flag. -/
  | unknownFlag
  /-- Two groups have the same name. -/
  | repeatedName
  /-- The name of a group is empty. -/
  | noName
  /-- A character cannot be in the name of a group. -/
  | badName
  /-- The text ends in the name of a group. -/
  | nameOpen
  /-- A group is not closed. -/
  | groupOpen
  /-- A group is closed that was not opened. -/
  | groupClose
  /-- The greatest number of turns is below the least one. -/
  | countOrder
  /-- A number of turns is missing. -/
  | noCount
  /-- A number of turns is not closed. -/
  | countOpen
  /-- There is nothing to repeat. -/
  | nothingToRepeat
  /-- A word edge is not closed. -/
  | edgeOpen
  /-- There is no such word edge. -/
  | unknownEdge
  /-- The text ends in a word edge or a number of turns. -/
  | edgeOrCountOpen
  /-- The name of a character property is a backslash. -/
  | badProperty
  /-- A reference to a group. -/
  | backreference
  /-- A look at the text beside the place. -/
  | lookAround
  /-- A character or property outside of ASCII where only bytes are meant. -/
  | asciiOnly
  /-- The pattern could take a part of a character. -/
  | partOfCharacter
  /-- The property of characters is not known. -/
  | unknownProperty
  /-- Digits, blanks and words are known for ASCII only. -/
  | unknownClass
  /-- The case of letters is known for ASCII only. -/
  | unknownCase
  /-- The value of a property of characters is not known. -/
  | unknownPropertyValue
  /-- Groups, brackets and repetitions stand in each other too many times. -/
  | nesting
  deriving DecidableEq

/-- How many groups, brackets, repetitions, sequences and choices may stand in each other. -/
def nestingLimit : Nat := 250

/-- The message of a cause. -/
def Cause.message : Cause → String
  | .bracketEscape => "invalid escape sequence found in character class"
  | .rangeOrder => "invalid character class range, the start must be <= the end"
  | .rangeEnd => "invalid range boundary, must be a literal"
  | .bracketOpen => "unclosed character class"
  | .noDecimal => "decimal literal empty"
  | .badDecimal => "decimal literal invalid"
  | .noHex => "hexadecimal literal empty"
  | .badHex => "hexadecimal literal is not a Unicode scalar value"
  | .badHexDigit => "invalid hexadecimal digit"
  | .escapeOpen => "incomplete escape sequence, reached end of pattern prematurely"
  | .unknownEscape => "unrecognized escape sequence"
  | .danglingMinus => "dangling flag negation operator"
  | .repeatedFlag => "duplicate flag"
  | .repeatedMinus => "flag negation operator repeated"
  | .flagsOpen => "expected flag but got end of regex"
  | .unknownFlag => "unrecognized flag"
  | .repeatedName => "duplicate capture group name"
  | .noName => "empty capture group name"
  | .badName => "invalid capture group character"
  | .nameOpen => "unclosed capture group name"
  | .groupOpen => "unclosed group"
  | .groupClose => "unopened group"
  | .countOrder => "invalid repetition count range, the start must be <= the end"
  | .noCount => "repetition quantifier expects a valid decimal"
  | .countOpen => "unclosed counted repetition"
  | .nothingToRepeat => "repetition operator missing expression"
  | .edgeOpen =>
    "special word boundary assertion is either unclosed or contains an invalid character"
  | .unknownEdge => "unrecognized special word boundary assertion, " ++
    "valid choices are: start, end, start-half or end-half"
  | .edgeOrCountOpen => "found either the beginning of a special word boundary or a bounded " ++
    "repetition on a \\b with an opening brace, but no closing brace"
  | .badProperty => "invalid Unicode character class"
  | .backreference => "backreferences are not supported"
  | .lookAround => "look-around, including look-ahead and look-behind, is not supported"
  | .asciiOnly => "Unicode not allowed here"
  | .partOfCharacter => "pattern can match invalid UTF-8"
  | .unknownProperty => "Unicode property not found"
  | .unknownClass => "Unicode-aware Perl class not found " ++
    "(make sure the unicode-perl feature is enabled)"
  | .unknownCase => "Unicode-aware case insensitivity matching is not available " ++
    "(make sure the unicode-case feature is enabled)"
  | .unknownPropertyValue => "Unicode property value not found"
  | .nesting => s!"exceed the maximum number of nested parentheses/brackets ({nestingLimit})"

/-- A part of a text, given by the counts of the characters that are left where it starts and where it
stops. -/
structure Span where
  /-- The characters left at its start. -/
  start : Nat
  /-- The characters left behind it. -/
  stop : Nat
  deriving DecidableEq

/-- A mistake in the text of a pattern. -/
structure Mistake where
  /-- What is wrong. -/
  cause : Cause
  /-- Where it is. -/
  span : Span
  /-- What it repeats. -/
  earlier : Option Span := none
  deriving DecidableEq

namespace Mistake

/-- The line and the column of the place before the last `left` characters, both counted from zero. -/
def place (text : List Char) (left : Nat) : Nat × Nat :=
  let before := text.take (text.length - left)
  (before.count '\n', (before.reverse.takeWhile (· != '\n')).length)

/-- A line without the carriage return at its end. -/
def chopReturn (line : List Char) : List Char :=
  if line.getLast? = some '\r' then line.dropLast else line

/-- The lines of a text. A line feed ends a line together with a carriage return before it; the last line
need not be ended. -/
def textLines (text : List Char) : List (List Char) :=
  let lines := Text.pieces '\n' text
  lines.dropLast.map chopReturn ++ lines.getLast?.toList.filter (· ≠ [])

/-- Carets below the columns of some parts of a line, from the column `col` on. -/
def carets (col : Nat) : List (Nat × Nat) → List Char
  | [] => []
  | (first, past) :: parts =>
    let width := max 1 (past - first)
    List.replicate (first - col) ' ' ++ List.replicate width '^' ++
      carets (max col first + width) parts

/-- The places of the parts that a mistake marks, in the order of the text. -/
def parts (text : List Char) (m : Mistake) : List ((Nat × Nat) × (Nat × Nat)) :=
  let spans := match m.earlier with
    | some e => if m.span.start < e.start then [e, m.span] else [m.span, e]
    | none => [m.span]
  spans.map fun s => (place text s.start, place text s.stop)

/-- A number in a field of a width. -/
def padLeft (width n : Nat) : List Char :=
  let digits := Nat.toDigits 10 n
  List.replicate (width - digits.length) ' ' ++ digits

/-- The text with marks below the lines that hold a mistake; each line with its number if there are
several ones. -/
def marked (text : List Char) (m : Mistake) : List Char :=
  let count := text.count '\n' + 1
  let width := if count = 1 then 0 else (Nat.toDigits 10 count).length
  let lines := (textLines text).zipIdx.flatMap fun (line, i) =>
    let here := (m.parts text).filter fun (first, past) => first.1 = i && past.1 = i
    let label := if width = 0 then List.replicate 4 ' ' else padLeft width (i + 1) ++ [':', ' ']
    let marks := carets 0 (here.map fun (first, past) => (first.2, past.2))
    (label ++ line ++ ['\n']) ::
      if here = [] then [] else [List.replicate label.length ' ' ++ marks ++ ['\n']]
  lines.flatten

/-- The notes about parts that go over several lines. -/
def notes (text : List Char) (m : Mistake) : List String :=
  (m.parts text).filterMap fun (first, past) =>
    if first.1 = past.1 then none
    else some (s!"on line {first.1 + 1} (column {first.2 + 1}) " ++
      s!"through line {past.1 + 1} (column {past.2})")

/-- The message of a mistake in the text of a pattern. -/
def message (text : List Char) (m : Mistake) : String :=
  let marked := String.ofList (m.marked text)
  if '\n' ∈ text then
    let rule := String.ofList (List.replicate 79 '~') ++ "\n"
    let notes := match m.notes text with
      | [] => ""
      | notes => "\n".intercalate notes ++ "\n"
    "regex parse error:\n" ++ rule ++ marked ++ rule ++ notes ++ "error: " ++ m.cause.message
  else "regex parse error:\n" ++ marked ++ "error: " ++ m.cause.message

end Mistake

end ShaderFilter.Pattern
