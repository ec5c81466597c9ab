import ShaderFilter.Pattern.Reader

/-!
# Brackets

Reading a set of characters in brackets: characters, ranges, named sets and further brackets stand side by
side in unions, and operations between the unions are applied from left to right.
-/

namespace ShaderFilter.Pattern.Reader

/-- An open bracket. -/
structure Opened where
  /-- The place of the bracket. -/
  start : Nat
  /-- The place behind the bracket and the characters that have a meaning only there. -/
  stop : Nat
  /-- Whether the set is turned over. -/
  negated : Bool

/-- What has been read in a bracket. -/
structure Contents where
  /-- The place where the union starts that is read now. -/
  start : Nat
  /-- The items of the union, the last one first. -/
  items : List SetTree := []
  /-- The set in front of the union, with the operation between them. -/
  left : Option (SetOperation × SetTree) := none

namespace Contents

/-- Adds an item to the union. -/
def push (x : Contents) (s : SetTree) : Contents := { x with items := s :: x.items }

/-- The union that is read now. -/
def union (x : Contents) : SetTree :=
  match x.items, x.items.getLast? with
  | [s], _ => s
  | last :: _, some first => .union x.items.reverse ⟨first.span.start, last.span.stop⟩
  | _, _ => .empty ⟨x.start, x.start⟩

/-- The set that has been read. -/
def set (x : Contents) : SetTree :=
  match x.left with
  | none => x.union
  | some (op, left) => .combined op left x.union

end Contents

/-- Refuses the text because a bracket is not closed. -/
def unclosed {α : Type} (o : Opened) : Reader α := refuse .bracketOpen o.start o.stop

/-- Takes the next character as it is. -/
def verbatim (c : Char) : Reader Literal := do
  let start ← here
  bump
  return ⟨c, false, ⟨start, ← here⟩⟩

/-- Takes minus signs, which stand for themselves. -/
def minusSigns (start : Nat) (x : Contents) : Nat → Reader Contents
  | 0 => return x
  | n + 1 => do
    if (← peek) ≠ some '-' then return x
    let l ← verbatim '-'
    space
    if (← peek) = none then refuse .bracketOpen start start
    minusSigns start (x.push (.literal l)) n

/-- Takes minus signs or a closing bracket, which stand for themselves at the start of a set; `start` is
the place of its bracket. -/
def firstItems (start : Nat) : Reader Contents := do
  let x ← minusSigns start { start := ← here } (← here)
  if x.items.isEmpty && (← peek) == some ']' then
    let l ← verbatim ']'
    space
    if (← peek) = none then refuse .bracketOpen start (← here)
    return x.push (.literal l)
  return x

/-- Takes an opening bracket with a sign that turns the set over, and what stands for itself behind it. -/
def openBracket : Reader (Opened × Contents) := do
  let start ← here
  let close {α : Type} : Reader α := do refuse .bracketOpen start (← here)
  bumpSpace
  let some c ← peek | close
  let negated := c = '^'
  if negated then
    bumpSpace
    if (← peek) = none then close
  let x ← firstItems start
  return (⟨start, ← here, negated⟩, x)

/-- The named set that a text starts with, whether it is turned over, and the rest of the text. -/
def namedSet? (text : List Char) : Option (Bool × CharSet × List Char) := do
  let rest ← ['[', ':'].isPrefixOf? text
  let negated := rest.head? == some '^'
  let rest := if negated then rest.drop 1 else rest
  let set ← CharSet.named.lookup (String.ofList (rest.takeWhile (· != ':')))
  let rest ← [':', ']'].isPrefixOf? (rest.dropWhile (· != ':'))
  return (negated, set, rest)

/-- Takes a character or an escape. -/
def bracketItem : Reader Piece := do
  let some c ← peek | refuseHere .escapeOpen
  if c = '\\' then escape else return .literal (← verbatim c)

/-- The character that an end of a range stands for. -/
def rangeEnd : Piece → Reader Literal
  | .literal l => return l
  | .shorthand _ span | .mark _ span => throw ⟨.rangeEnd, span, none⟩

/-- Takes a character, an escape or a range. -/
def bracketRange (o : Opened) : Reader SetTree := do
  let first ← bracketItem
  space
  let some c ← peek | unclosed o
  let second ← peekSecond
  if c ≠ '-' ∨ second = some ']' ∨ second = some '-' then
    match first with
    | .literal l => return .literal l
    | .shorthand k span => return .shorthand k span
    | .mark _ span => throw ⟨.bracketEscape, span, none⟩
  bumpSpace
  if (← peek) = none then unclosed o
  let last ← bracketItem
  let a ← rangeEnd first
  let b ← rangeEnd last
  if b.char < a.char then refuse .rangeOrder a.span.start b.span.stop
  return .range a b

/-- The operations between sets. -/
def operations : List (String × SetOperation) :=
  [("&&", .inter), ("--", .difference), ("~~", .symmetricDifference)]

/-- The operation that a text starts with. -/
def operation? (text : List Char) : Option (String × SetOperation) :=
  operations.find? fun op => op.1.toList.isPrefixOf text

/-- Takes what stands in a bracket up to its closing bracket; `around` are the brackets around it, the
innermost one first. Each part takes a character, so the length of the text bounds their number. -/
def bracketRest (around : List (Opened × Contents)) (o : Opened) (x : Contents) :
    Nat → Reader SetTree
  | 0 => unclosed o
  | n + 1 => do
    space
    let rest := (← get).rest
    match rest with
    | [] => unclosed o
    | ']' :: _ =>
      bump
      let s : SetTree := .bracket o.negated x.set ⟨o.start, ← here⟩
      match around with
      | [] => return s
      | (outer, y) :: around => bracketRest around outer (y.push s) n
    | '[' :: _ =>
      match namedSet? rest with
      | some (negated, set, rest) =>
        let start ← here
        modify (·.at rest)
        let s : SetTree := .named negated set ⟨start, ← here⟩
        bracketRest around o (x.push s) n
      | none =>
        let (inner, y) ← openBracket
        bracketRest ((o, x) :: around) inner y n
    | _ =>
      match operation? rest with
      | some (sign, op) =>
        discard (accept sign)
        bracketRest around o { start := ← here, left := some (op, x.set) } n
      | none =>
        let s ← bracketRange o
        bracketRest around o (x.push s) n

/-- Takes a set of characters in brackets. -/
def bracket : Reader SetTree := do
  let (o, x) ← openBracket
  bracketRest [] o x ((← here) + 1)

end ShaderFilter.Pattern.Reader
