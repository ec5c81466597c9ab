/-!
# Control sequences of terminals

A text as it is written where no terminal reads it: the sequences of characters that would control a
terminal are left out, and so are all other control characters but white space.
-/

namespace ShaderFilter.Text.Terminal

/-- What stands in front of the next character. -/
inductive Context where
  /-- Plain text. -/
  | plain
  /-- The escape character. -/
  | escape
  /-- An escape sequence that goes on behind its first characters. -/
  | escapeTail
  /-- A control sequence, up to its last character. -/
  | control
  /-- An order to the operating system, up to a bell. -/
  | order
  /-- The start of a device control text. -/
  | device
  /-- The numbers at the start of a device control text. -/
  | deviceNumbers
  /-- The other characters at the start of a device control text. -/
  | deviceTail
  /-- A text that is not for the screen. -/
  | hidden
  deriving DecidableEq

/-- White space that is a control character. -/
def isSpacing (c : Char) : Bool := c == '\t' || c == '\n' || c == '\x0c' || c == '\r'

/-- Whether the encoding of a character holds the byte that ends a hidden text. -/
def endsHidden (c : Char) : Bool := (String.utf8EncodeChar c).contains 0x9c

/-- What stands in front of the character after `c`, where `c` is none of the characters that have the
same meaning everywhere. -/
def Context.next (x : Context) (c : Char) : Context :=
  match x with
  | .plain => .plain
  | .escape =>
    if c == '[' then .control
    else if c == ']' then .order
    else if c == 'P' then .device
    else if c == 'X' || c == '^' || c == '_' then .hidden
    else if ' ' ≤ c && c ≤ '/' then .escapeTail
    else if '0' ≤ c && c ≤ '~' then .plain
    else .escape
  | .escapeTail => if '0' ≤ c && c ≤ '~' then .plain else .escapeTail
  | .control => if '@' ≤ c && c ≤ '~' then .plain else .control
  | .order => if c == '\x07' then .plain else .order
  | .device =>
    if ' ' ≤ c && c ≤ '/' then .deviceTail
    else if '0' ≤ c && c ≤ '?' then .deviceNumbers
    else if '@' ≤ c && c ≤ '~' then .hidden
    else .device
  | .deviceNumbers =>
    if ' ' ≤ c && c ≤ '/' then .deviceTail
    else if '<' ≤ c && c ≤ '~' then .hidden
    else .deviceNumbers
  | .deviceTail => if '0' ≤ c && c ≤ '~' then .hidden else .deviceTail
  | .hidden => if endsHidden c then .plain else .hidden

/-- Whether white space is shown in a place. -/
def Context.showsSpacing : Context → Bool
  | .plain | .escape | .escapeTail | .control => true
  | _ => false

/-- Whether a character is shown in plain text. -/
def isShown (c : Char) : Bool := isSpacing c || (' ' ≤ c && c != '\x7f')

/-- The characters of a text that are shown. White space inside of a sequence is shown, and so is what
follows it up to the next character that is not shown, with which the sequence goes on; `shows` is whether
the text is at such a place. -/
def shown (x : Context) (shows : Bool) : List Char → List Char
  | [] => []
  | c :: cs =>
    if c = '\x1b' then shown .escape false cs
    else if c = '\x18' ∨ c = '\x1a' then shown .plain false cs
    else if (shows || x == .plain) && isShown c then
      c :: shown (if c.toNat < 0x80 then x else .plain) true cs
    else if x.showsSpacing && isSpacing c then c :: shown x true cs
    else shown (x.next c) false cs

/-- A text without the control sequences of terminals. -/
def strip (s : String) : String := String.ofList (shown .plain false s.toList)

end ShaderFilter.Text.Terminal
