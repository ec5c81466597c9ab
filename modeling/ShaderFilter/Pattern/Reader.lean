import ShaderFilter.Pattern.Tree
import ShaderFilter.Text.Blank
import ShaderFilter.Text.Letter

/-!
# Reading the parts of patterns

Readers for the text of a pattern below its groups and brackets: escapes, counts of turns and flags. They
look at the form of a pattern only, and end at the first mistake in it.
-/

namespace ShaderFilter.Pattern

/-! ### Readers -/

/-- The state of the reading. -/
structure Scanner where
  /-- The text that is left. -/
  rest : List Char
  /-- The count of its characters. -/
  left : Nat
  /-- Whether blanks and comments stand between the parts. -/
  loose : Bool
  /-- The number of groups that were counted. -/
  groups : Nat
  /-- The names of groups, with their places. -/
  names : List (List Char × Span)

/-- The start of the reading of a text. -/
def Scanner.start (text : List Char) : Scanner := ⟨text, text.length, false, 0, []⟩

/-- The state with another text that is left. -/
def Scanner.at (s : Scanner) (rest : List Char) : Scanner := { s with rest, left := rest.length }

/-- Takes characters from the front of a text, or refuses it. -/
abbrev Reader := StateT Scanner (Except Mistake)

namespace Reader

/-- The place of the reader, as the count of the characters that are left. -/
def here : Reader Nat := do return (← get).left

/-- The next character, which stays; none at the end. -/
def peek : Reader (Option Char) := do return (← get).rest.head?

/-- Refuses the text for the part between two places. -/
def refuse {α : Type} (cause : Cause) (start stop : Nat) : Reader α := throw ⟨cause, ⟨start, stop⟩, none⟩

/-- Refuses the text for the place of the reader. -/
def refuseHere {α : Type} (cause : Cause) : Reader α := do refuse cause (← here) (← here)

/-- Refuses the text for the next character. -/
def refuseNext {α : Type} (cause : Cause) : Reader α := do refuse cause (← here) ((← here) - 1)

/-- A text without the blanks and comments at its start; `comment` is whether it starts in a comment. -/
def dropLoose (comment : Bool) : List Char → List Char
  | [] => []
  | c :: cs =>
    if comment then dropLoose (c != '\n') cs
    else if Text.isBlank c then dropLoose false cs
    else if c = '#' then dropLoose true cs
    else c :: cs

/-- Takes blanks and comments where they are allowed. -/
def space : Reader Unit :=
  modify fun s =>
    if s.loose && s.rest.head?.any (fun c => Text.isBlank c || c == '#') then s.at (dropLoose false s.rest)
    else s

/-- Takes a character. -/
def bump : Reader Unit := modify fun s => { s with rest := s.rest.drop 1, left := s.left - 1 }

/-- Takes a character, and the blanks and comments behind it. -/
def bumpSpace : Reader Unit := do bump; space

/-- The first character of a text that is neither a blank nor the first number sign. -/
def firstShown (sign : Bool) : List Char → Option Char
  | [] => none
  | c :: cs =>
    if Text.isBlank c then firstShown sign cs
    else if !sign && c == '#' then firstShown true cs
    else some c

/-- The character behind the next one. Where blanks and comments are allowed, blanks and one number sign
are passed over, if anything else follows them. -/
def peekSecond : Reader (Option Char) := do
  let s ← get
  let rest := s.rest.drop 1
  return (if s.loose then firstShown false rest else none) <|> rest.head?

/-- Takes a given text, if it is next; says whether it was. -/
def accept (text : String) : Reader Bool := do
  let s ← get
  match text.toList.isPrefixOf? s.rest with
  | some rest => set (s.at rest); return true
  | none => return false

/-- The text from an earlier place up to the reader, given the text that was left there. -/
def takenSince (earlier : List Char) : Reader (List Char) := do
  return earlier.take (earlier.length - (← here))

/-! ### Numbers -/

/-- Takes up to `n` characters of a class, with blanks between them, behind those in `taken`, which are in
reverse order. -/
def spaced (p : Char → Bool) (taken : List Char) : Nat → Reader (List Char)
  | 0 => return taken.reverse
  | n + 1 => do
    match ← peek with
    | some c => if p c then do bumpSpace; spaced p (c :: taken) n else return taken.reverse
    | none => return taken.reverse

/-- Takes the characters of a class, with blanks between them. -/
def spacedAll (p : Char → Bool) : Reader (List Char) := do spaced p [] (← here)

/-- Takes a decimal number with blanks around it; a mistake in it is given back. -/
def decimal : Reader (Except Mistake Nat) := do
  modify fun s => s.at (s.rest.dropWhile Text.isBlank)
  let start ← here
  let digits ← spacedAll Char.isDigit
  let span : Span := ⟨start, ← here⟩
  discard (spacedAll Text.isBlank)
  let value := digits.foldl (fun n c => 10 * n + (c.toNat - '0'.toNat)) 0
  return if digits = [] then .error ⟨.noCount, span, none⟩
    else if 4294967295 < value then .error ⟨.badDecimal, span, none⟩
    else .ok value

/-- The value of a hexadecimal digit. -/
def hexDigit? (c : Char) : Option Nat :=
  if c.isDigit then some (c.toNat - '0'.toNat)
  else if 'a' ≤ c ∧ c ≤ 'f' then some (c.toNat - 'a'.toNat + 10)
  else if 'A' ≤ c ∧ c ≤ 'F' then some (c.toNat - 'A'.toNat + 10)
  else none

/-- The character with a number. -/
def charOf (value : Nat) (span : Span) : Reader Char :=
  if value.isValidChar then pure (Char.ofNat value) else throw ⟨.badHex, span, none⟩

/-- Takes `n` hexadecimal digits onto a number; `first` is whether none has been taken. -/
def hexFixed (value : Nat) (first : Bool) : Nat → Reader Nat
  | 0 => return value
  | n + 1 => do
    unless first do bumpSpace
    match ← peek with
    | none => refuseHere .escapeOpen
    | some c =>
      match hexDigit? c with
      | some d => hexFixed (16 * value + d) false n
      | none => refuseNext .badHexDigit

/-- Takes hexadecimal digits up to a closing brace onto a number, which is missing at first. -/
def hexBrace (brace : Nat) (value : Option Nat) : Nat → Reader (Option Nat)
  | 0 => return value
  | n + 1 => do
    bumpSpace
    match ← peek with
    | none => refuse .escapeOpen brace (← here)
    | some '\x7d' => return value
    | some c =>
      match hexDigit? c with
      | some d => hexBrace brace (some (16 * value.getD 0 + d)) n
      | none => refuseNext .badHexDigit

/-- Takes the character of a hexadecimal escape at its letter; says too whether it is given by two
digits. -/
def hexEscape (letter : Char) : Reader (Char × Bool) := do
  bumpSpace
  match ← peek with
  | none => refuseHere .escapeOpen
  | some '\x7b' =>
    let brace ← here
    let value ← hexBrace brace none brace
    let stop ← here
    bumpSpace
    match value with
    | none => refuse .noHex brace (← here)
    | some value => return (← charOf value ⟨brace - 1, stop⟩, false)
  | some _ =>
    let start ← here
    let count := if letter = 'x' then 2 else if letter = 'u' then 4 else 8
    let value ← hexFixed 0 true count
    bumpSpace
    return (← charOf value ⟨start, ← here⟩, letter = 'x')

/-! ### Escapes -/

/-- What an escape stands for. -/
inductive Piece where
  /-- A character. -/
  | literal (l : Literal)
  /-- A class of characters. -/
  | shorthand (k : Shorthand) (span : Span)
  /-- A mark for a place. -/
  | mark (m : Mark) (span : Span)

/-- Takes the name of a property of characters, behind the letter for properties. -/
def propertyName : Reader (List Char) := do
  bumpSpace
  match ← peek with
  | none => refuseHere .escapeOpen
  | some '\\' => refuseNext .badProperty
  | some '\x7b' =>
    bumpSpace
    let name ← spacedAll (· != '\x7d')
    if (← peek) = none then refuseHere .escapeOpen
    bump
    return name
  | some c =>
    bumpSpace
    return [c]

/-- The names of word edges. -/
def edgeNames : List (String × WordEdge) :=
  [("start", .start), ("end", .stop), ("start-half", .startHalf), ("end-half", .stopHalf)]

/-- Whether a character can be in the name of a word edge. -/
def isEdgeNameChar (c : Char) : Bool := c.isAlpha || c == '-'

/-- Takes the name of a word edge in braces, if there is one; a number of turns in braces stays. `start` is
the place of the escape. -/
def edgeName (start : Nat) : Reader WordEdge := do
  if (← peek) ≠ some '\x7b' then return .boundary
  let before ← get
  let brace ← here
  bumpSpace
  let name ← here
  match ← peek with
  | none => refuse .edgeOrCountOpen start (← here)
  | some c =>
    if !isEdgeNameChar c then
      set before
      return .boundary
    let word ← spacedAll isEdgeNameChar
    let stop ← here
    if (← peek) ≠ some '\x7d' then refuse .edgeOpen brace stop
    bump
    match edgeNames.lookup (String.ofList word) with
    | some e => return e
    | none => refuse .unknownEdge name stop

/-- The characters that an escape of one letter stands for. -/
def controls : List (Char × Char) :=
  [('a', '\x07'), ('f', '\x0c'), ('t', '\t'), ('n', '\n'), ('r', '\r'), ('v', '\x0b')]

/-- Whether a backslash in front of a character leaves the character as it is. -/
def isEscapable (c : Char) : Bool :=
  c.toNat < 0x80 && !c.isAlphanum && c != '<' && c != '>'

/-- Takes an escape at its backslash. -/
def escape : Reader Piece := do
  let start ← here
  bump
  let some c ← peek | refuse .escapeOpen start (← here)
  if c.isDigit then refuse .backreference start ((← here) - 1)
  if c = 'x' ∨ c = 'u' ∨ c = 'U' then
    let (c, byte) ← hexEscape c
    return .literal ⟨c, byte, ⟨start, ← here⟩⟩
  if c = 'p' ∨ c = 'P' then
    let name ← propertyName
    return .shorthand (.property name) ⟨start, ← here⟩
  bump
  let span : Span := ⟨start, ← here⟩
  if c ∈ ['d', 's', 'w', 'D', 'S', 'W'] then return .shorthand (.letter c) span
  if isEscapable c then return .literal ⟨c, false, span⟩
  if let some control := controls.lookup c then return .literal ⟨control, false, span⟩
  match c with
  | 'A' => return .mark .textStart span
  | 'z' => return .mark .textEnd span
  | 'b' =>
    let e ← edgeName start
    return .mark (.edge e) ⟨start, ← here⟩
  | 'B' => return .mark (.edge .noBoundary) span
  | '<' => return .mark (.edge .start) span
  | '>' => return .mark (.edge .stop) span
  | _ => refuse .unknownEscape start (← here)

/-! ### Turns -/

/-- Takes a question mark, which asks a repetition to take as little as it can. -/
def lazy : Reader Unit := do
  if (← peek) = some '?' then bump

/-- Takes a least and a greatest number of turns at their brace; `start` is its place. -/
def limits (start : Nat) : Reader (Nat × Option Nat) := do
  let unclosed {α : Type} : Reader α := do refuse .countOpen start (← here)
  bumpSpace
  if (← peek) = none then unclosed
  let least ← decimal
  let turns ← match ← peek with
    | none => unclosed
    | some ',' => do
      bumpSpace
      match ← peek with
      | none => unclosed
      | some '\x7d' => pure (← least, none)
      | some _ =>
        let least ← least
        let most ← decimal
        pure (least, some (← most))
    | some _ => do
      let n ← least
      pure (n, some n)
  if (← peek) ≠ some '\x7d' then unclosed
  bumpSpace
  lazy
  return turns

/-- Takes a number of turns at its brace. -/
def count : Reader (Nat × Option Nat) := do
  let start ← here
  let (least, most) ← limits start
  if most.any (· < least) then refuse .countOrder start (← here)
  return (least, most)

/-! ### Heads of groups -/

/-- Takes flags up to a colon or a closing parenthesis. -/
def flags : Nat → List (Option Flag × Span) → Reader (List (Option Flag))
  | 0, items => return items.map (·.1)
  | n + 1, items => do
    let span : Span := ⟨← here, (← here) - 1⟩
    let some c ← peek | refuseHere .flagsOpen
    if c = ':' ∨ c = ')' then
      match items.getLast? with
      | some (none, span) => throw ⟨.danglingMinus, span, none⟩
      | _ => return items.map (·.1)
    let item ← if c = '-' then pure none else
      match Flag.read? c with
      | some f => pure (some f)
      | none => refuseNext .unknownFlag
    if let some earlier := items.lookup item then
      throw ⟨if item = none then .repeatedMinus else .repeatedFlag, span, some earlier⟩
    bump
    flags n (items ++ [(item, span)])

/-- Whether a character can be in the name of a group; `first` is whether it starts the name. -/
def isNameChar (first : Bool) (c : Char) : Bool :=
  c == '_' || Text.isAlphabetic c ||
    !first && (Text.isNumeric c || c == '.' || c == '[' || c == ']')

/-- Takes the characters of the name of a group. -/
def nameChars (first : Bool) : Nat → Reader Unit
  | 0 => return
  | n + 1 => do
    match ← peek with
    | none => refuseHere .nameOpen
    | some '>' => return
    | some c => if isNameChar first c then do bump; nameChars false n else refuseNext .badName

/-- Takes the name of a group with the angle bracket behind it. -/
def groupName : Reader Unit := do
  let text := (← get).rest
  let start ← here
  nameChars true (start + 1)
  let name ← takenSince text
  let span : Span := ⟨start, ← here⟩
  bump
  if name = [] then refuse .noName start start
  if let some earlier := (← get).names.lookup name then
    throw ⟨.repeatedName, span, some earlier⟩
  modify fun s => { s with names := s.names ++ [(name, span)] }

/-- What the parenthesis that opens a group says. -/
inductive GroupHead where
  /-- Flags for the rest of the group around it. -/
  | flags (items : List (Option Flag))
  /-- A group with flags of its own. -/
  | group (items : List (Option Flag))
  /-- A group whose place in the text has a number. -/
  | captured (index : Nat)

/-- Counts a group. -/
def countGroup : Reader GroupHead := do
  modify fun s => { s with groups := s.groups + 1 }
  return .captured (← get).groups

/-- Takes the head of a group at its parenthesis. -/
def groupHead : Reader GroupHead := do
  let start ← here
  bumpSpace
  if ← accept "?=" <||> accept "?!" <||> accept "?<=" <||> accept "?<!" then
    refuse .lookAround start (← here)
  let mark ← here
  if ← accept "?P<" <||> accept "?<" then
    groupName
    return ← countGroup
  if !(← accept "?") then return ← countGroup
  if (← peek) = none then refuse .groupOpen start (start - 1)
  let items ← flags (mark + 1) []
  let last ← peek
  bump
  if last = some ':' then return .group items
  if items = [] then refuse .nothingToRepeat mark mark
  return .flags items

end Reader

end ShaderFilter.Pattern
