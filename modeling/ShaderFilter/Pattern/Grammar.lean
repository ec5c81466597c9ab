import ShaderFilter.Pattern.Bracket

/-!
# Reading patterns

The text of a pattern is a choice between sequences of parts; a part is a character, a set, a mark for a
place, or a group, and may be followed by repetitions.
-/

namespace ShaderFilter.Pattern

namespace Reader

/-- What has been read of a group. -/
structure Body where
  /-- The place where the sequence starts that is read now. -/
  start : Nat
  /-- Its parts with the places where they start, the last one first. -/
  parts : List (Nat × Tree) := []
  /-- The place where the first sequence starts, and the sequences in front of this one, the last one
  first. -/
  choices : Option (Nat × List Tree) := none

namespace Body

/-- Adds a part that starts at a place. -/
def push (b : Body) (start : Nat) (t : Tree) : Body := { b with parts := (start, t) :: b.parts }

/-- The sequence that is read now, up to a place. -/
def sequence (b : Body) (stop : Nat) : Tree :=
  match b.parts with
  | [] => .empty
  | [(_, t)] => t
  | parts => .sequence (parts.reverse.map Prod.snd) ⟨b.start, stop⟩

/-- The group up to a place. -/
def tree (b : Body) (stop : Nat) : Tree :=
  match b.choices with
  | none => b.sequence stop
  | some (start, ts) => .choice (b.sequence stop :: ts).reverse ⟨start, stop⟩

/-- Ends the sequence at a bar, behind which another one starts. -/
def bar (b : Body) (stop : Nat) : Body :=
  let (start, ts) := b.choices.getD (b.start, [])
  { start := stop - 1, choices := some (start, b.sequence stop :: ts) }

end Body

/-- A group that is not closed yet. -/
structure OpenGroup where
  /-- The place of its parenthesis. -/
  start : Nat
  /-- What its parenthesis says. -/
  head : GroupHead
  /-- What was read in front of it. -/
  before : Body
  /-- Whether blanks and comments were allowed there. -/
  loose : Bool

/-- The part that a group is, up to a place. -/
def OpenGroup.tree (g : OpenGroup) (t : Tree) (stop : Nat) : Tree :=
  match g.head with
  | .captured index => .captured index t ⟨g.start, stop⟩
  | .group items | .flags items => .group items t ⟨g.start, stop⟩

/-- Takes an escape, a mark or a character. -/
def piece : Reader Tree := do
  let some c ← peek | refuseHere .escapeOpen
  match c with
  | '\\' =>
    match ← escape with
    | .literal l => return .literal l
    | .shorthand k span => return .shorthand k span
    | .mark m _ => return .mark m
  | '.' =>
    let l ← verbatim c
    return .dot l.span
  | '^' =>
    bump
    return .mark .lineStart
  | '$' =>
    bump
    return .mark .lineEnd
  | _ => return .literal (← verbatim c)

/-- The turns that a mark without numbers stands for. -/
def turns? (c : Char) : Option (Nat × Option Nat) :=
  [('?', (0, some 1)), ('*', (0, none)), ('+', (1, none))].lookup c

/-- Takes a repetition of the last part. -/
def repetition (c : Char) (b : Body) : Reader Body := do
  match b.parts with
  | [] | (_, .flags _) :: _ => refuseHere .nothingToRepeat
  | (start, t) :: parts =>
    let (least, most) ← match turns? c with
      | some turns => do
        bump
        lazy
        pure turns
      | none => count
    let t : Tree := .repeated t least most ⟨start, ← here⟩
    return { b with parts := (start, t) :: parts }

/-- Takes parts up to the end of the text; `around` are the open groups, the innermost one first. Each
part takes a character, so the length of the text bounds their number. -/
def parts (around : List OpenGroup) (b : Body) : Nat → Reader Tree
  | 0 => return b.tree 0
  | n + 1 => do
    space
    let start ← here
    match ← peek with
    | none =>
      match around with
      | [] => return b.tree start
      | g :: _ => refuse .groupOpen g.start (g.start - 1)
    | some ')' =>
      match around with
      | [] => refuseNext .groupClose
      | g :: around =>
        modify fun s => { s with loose := g.loose }
        bump
        parts around (g.before.push g.start (g.tree (b.tree start) (← here))) n
    | some '|' =>
      bump
      parts around (b.bar start) n
    | some '(' =>
      let loose := (← get).loose
      let head ← groupHead
      let set (items : List (Option Flag)) : Reader Unit :=
        modify fun s => { s with loose := (flagState? .loose items).getD loose }
      match head with
      | .flags items =>
        set items
        parts around (b.push start (.flags items)) n
      | .group items =>
        set items
        parts (⟨start, head, b, loose⟩ :: around) { start := ← here } n
      | .captured _ => parts (⟨start, head, b, loose⟩ :: around) { start := ← here } n
    | some '[' =>
      let s ← bracket
      parts around (b.push start (.set s)) n
    | some c =>
      if c = '?' ∨ c = '*' ∨ c = '+' ∨ c = '\x7b' then
        let b ← repetition c b
        parts around b n
      else
        let t ← piece
        parts around (b.push start t) n

end Reader

/-- Reads the text of a pattern. -/
def Tree.read (text : List Char) : Except Mistake Tree := do
  let (t, _) ← (Reader.parts [] { start := text.length } (text.length + 1)).run (.start text)
  match t.beyond? nestingLimit with
  | some span => throw ⟨.nesting, span, none⟩
  | none => return t

end ShaderFilter.Pattern
