import ShaderFilter.Toml.Table

/-!
# Readers

A reader takes characters from the front of a text, or refuses it. This module has the readers for what
a TOML document consists of below its values: blanks, comments, line ends, strings and keys.
-/

namespace ShaderFilter.Toml

/-- Takes characters from the front of a text, or refuses it. -/
abbrev Reader := StateT (List Char) Option

namespace Reader

/-- The next character, which stays; none at the end. -/
def peek : Reader (Option Char) := do return (← get).head?

/-- Takes one character. -/
def next : Reader Char := do
  match ← get with
  | c :: cs => set cs; pure c
  | [] => failure

/-- Takes one character of a class. -/
def one (p : Char → Bool) : Reader Char := do
  let c ← next
  if p c then pure c else failure

/-- Takes the characters up to the first one outside of a class. -/
def takeAll (p : Char → Bool) : Reader (List Char) := do
  let cs ← get
  set (cs.dropWhile p)
  pure (cs.takeWhile p)

/-- Takes a given text, if it is next; says whether it was. -/
def accept (s : String) : Reader Bool := do
  match s.toList.isPrefixOf? (← get) with
  | some rest => set rest; pure true
  | none => pure false

/-- Takes a given text. -/
def expect (s : String) : Reader Unit := do
  unless ← accept s do failure

/-- Takes what `r` takes, at most `n` times, up to the first time it gives nothing. -/
def repeatUpTo {α : Type} (r : Reader (Option α)) : Nat → Reader (List α)
  | 0 => failure
  | n + 1 => do
    match ← r with
    | some a => return a :: (← repeatUpTo r n)
    | none => return []

/-- Takes what `r` takes up to the first time it gives nothing. Where `r` gives something it must take a
character, so the length of the text is a bound. -/
def many {α : Type} (r : Reader (Option α)) : Reader (List α) := do
  repeatUpTo r ((← get).length + 1)

/-! ### Blanks, comments and line ends -/

/-- The blanks inside a line. -/
def isGap (c : Char) : Bool := c == ' ' || c == '\t'

/-- The characters of comments. -/
def isCommentChar (c : Char) : Bool := c == '\t' || (' ' ≤ c && c != '\x7f')

/-- Takes blanks. -/
def gap : Reader Unit := discard (takeAll isGap)

/-- Takes a comment, if one is next. -/
def comment : Reader Bool := do
  if ← accept "#" then
    discard (takeAll isCommentChar)
    pure true
  else pure false

/-- Takes a line end, if one is next. -/
def newline : Reader Bool := do
  if ← accept "\n" then pure true else accept "\r\n"

/-- Takes the end of a line: blanks, a comment, and a line end or the end of the text. -/
def lineEnd : Reader Unit := do
  gap
  discard comment
  unless ← newline do
    if (← peek).isSome then failure

/-- Takes blanks, a line end or a comment, if one of them is next. -/
def spacePiece : Reader (Option Unit) := do
  let blanks ← takeAll isGap
  if blanks ≠ [] then return some ()
  if ← newline then return some ()
  if ← comment then return some ()
  return none

/-- Takes blanks, comments and line ends. -/
def space : Reader Unit := discard (many spacePiece)

/-! ### Strings -/

/-- The value of a hexadecimal digit. -/
def hexValue? (c : Char) : Option Nat :=
  if c.isDigit then some (c.toNat - '0'.toNat)
  else if 'a' ≤ c ∧ c ≤ 'f' then some (c.toNat - 'a'.toNat + 10)
  else if 'A' ≤ c ∧ c ≤ 'F' then some (c.toNat - 'A'.toNat + 10)
  else none

/-- Takes `n` hexadecimal digits onto a number. -/
def hexDigits (value : Nat) : Nat → Reader Nat
  | 0 => pure value
  | n + 1 => do
    match hexValue? (← next) with
    | some d => hexDigits (16 * value + d) n
    | none => failure

/-- Takes the number of a character in `n` hexadecimal digits. -/
def codePoint (n : Nat) : Reader Char := do
  let value ← hexDigits 0 n
  if value.isValidChar then pure (Char.ofNat value) else failure

/-- Takes an escape after its backslash. -/
def escape : Reader Char := do
  match ← next with
  | 'b' => pure '\x08'
  | 't' => pure '\t'
  | 'n' => pure '\n'
  | 'f' => pure '\x0c'
  | 'r' => pure '\r'
  | '"' => pure '"'
  | '\\' => pure '\\'
  | 'u' => codePoint 4
  | 'U' => codePoint 8
  | _ => failure

/-- The characters that stand for themselves in a string, quotes and backslashes aside. -/
def isTextChar (c : Char) : Bool := c == '\t' || (' ' ≤ c && c != '\x7f')

/-- Takes a character of a string up to its closing quote; `raw` is whether backslashes stand for
themselves. -/
def lineChar (quote : Char) (raw : Bool) : Reader (Option Char) := do
  let c ← next
  if c = quote then return none
  if c = '\\' ∧ !raw then return some (← escape)
  if isTextChar c then return some c
  failure

/-- Takes a string in one line after its opening quote. -/
def lineString (quote : Char) (raw : Bool) : Reader String := do
  return String.ofList (← many (lineChar quote raw))

/-- Takes the blanks and line ends after a backslash at the end of a line, if it stands there. -/
def continuation : Reader Bool := do
  let start ← get
  gap
  if ← newline then
    discard <| many do
      let blanks ← takeAll isGap
      if blanks ≠ [] then return some ()
      if ← newline then return some ()
      return none
    pure true
  else
    set start
    pure false

/-- The quotes of a run of `n` that belong to the text, and whether the other ones close the string. A
string may end with up to two quotes before the closing three. -/
def quotesOf (n : Nat) : Nat × Bool := if n < 3 then (n, false) else (min (n - 3) 2, true)

/-- Takes a piece of a string of several lines. Gives none at the closing quotes, with the quotes before
them still to be added. -/
def blockPiece (quote : Char) (raw : Bool) : Reader (Option (List Char)) := do
  let rest ← get
  let quotes := (rest.takeWhile (· == quote)).length
  if 0 < quotes then
    let (kept, closed) := quotesOf quotes
    if closed then return none
    set (rest.drop kept)
    return some (List.replicate kept quote)
  if ← newline then return some ['\n']
  let c ← next
  if c = '\\' ∧ !raw then
    if ← continuation then return some []
    return some [← escape]
  if isTextChar c then return some [c]
  failure

/-- Takes a string of several lines after its opening quotes. -/
def blockString (quote : Char) (raw : Bool) : Reader String := do
  discard newline
  let pieces ← many (blockPiece quote raw)
  let rest ← get
  let (kept, _) := quotesOf (rest.takeWhile (· == quote)).length
  set (rest.drop (kept + 3))
  return String.ofList (pieces.flatten ++ List.replicate kept quote)

/-- Takes a string, if one is next. -/
def string? : Reader (Option String) := do
  if ← accept "\"\"\"" then return some (← blockString '"' false)
  if ← accept "'''" then return some (← blockString '\'' true)
  if ← accept "\"" then return some (← lineString '"' false)
  if ← accept "'" then return some (← lineString '\'' true)
  return none

/-! ### Keys -/

/-- The characters of keys without quotes. -/
def isKeyChar (c : Char) : Bool :=
  c.isDigit || ('a' ≤ c && c ≤ 'z') || ('A' ≤ c && c ≤ 'Z') || c == '_' || c == '-'

/-- Takes one name of a key. -/
def name : Reader String := do
  if ← accept "\"" then return ← lineString '"' false
  if ← accept "'" then return ← lineString '\'' true
  let cs ← takeAll isKeyChar
  if cs = [] then failure
  return String.ofList cs

/-- How many tables a key, and how many arrays and tables a value, may lie deep. -/
def depthLimit : Nat := 80

/-- Takes a dot and the name after it, with blanks around it, if a dot is next. -/
def nextName : Reader (Option String) := do
  if ← accept "." then
    gap
    let other ← name
    gap
    return some other
  return none

/-- Takes the names of a dotted key, with blanks around them. -/
def key : Reader (List String) := do
  gap
  let first ← name
  gap
  let others ← many nextName
  if depthLimit ≤ others.length + 1 then failure
  return first :: others

end Reader

end ShaderFilter.Toml
