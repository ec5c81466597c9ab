import ShaderFilter.Pattern.Combine

/-!
# The size of patterns

A pattern is too large if the machines that read it byte by byte, one forwards and one backwards, exceed a
size (`sizeLimit`). Their sizes follow from the pattern: every state has a fixed size, a branch grows with
the number of its targets, and a choice of bytes with the number of the ranges of bytes that it tells apart.
Every turn of a repetition with numbers counts.
-/

namespace ShaderFilter.Pattern

/-! ### Sizes of states -/

/-- A state that goes on to one other state. -/
def stateSize : Nat := 32

/-- A state that goes on to any of `n` other states. -/
def branchSize (n : Nat) : Nat := stateSize + 4 * n

/-- A state that tells apart `n` ranges of bytes. -/
def tableSize (n : Nat) : Nat := stateSize + 8 * n

/-- The sum of some sizes. -/
def total (sizes : List Nat) : Nat := sizes.foldl (· + ·) 0

/-! ### Sets -/

/-- A range of bytes. -/
structure ByteRange where
  /-- The first byte. -/
  first : UInt8
  /-- The last byte. -/
  last : UInt8
  deriving DecidableEq

/-- A range of code points, cut behind one of them. -/
def cutBehind (n : Nat) : Nat × Nat → List (Nat × Nat)
  | (first, last) => if first ≤ n ∧ n < last then [(first, n), (n + 1, last)] else [(first, last)]

/-- A range of code points without those that are no characters. -/
def cutGap : Nat × Nat → List (Nat × Nat)
  | (first, last) =>
    if first < 0xe000 ∧ 0xd7ff < last then
      [(first, 0xd7ff), (0xe000, last)].filter fun (a, b) => a ≤ b
    else [(first, last)]

/-- A range of code points outside of ASCII, cut so that each part has its ends in one block of `n` code
points or is made of whole blocks. -/
def cutBlocks (n : Nat) : Nat × Nat → List (Nat × Nat)
  | (first, last) =>
    if last < 0x80 ∨ first / n = last / n then [(first, last)]
    else
      let whole := if first % n = 0 then first else (first / n + 1) * n
      let past := if (last + 1) % n = 0 then last + 1 else last / n * n
      [(first, whole - 1), (whole, past - 1), (past, last)].filter fun (a, b) => a ≤ b && a ≤ last

/-- The ranges of each byte of the characters in a range whose encodings differ byte by byte. -/
def byteRanges : Nat × Nat → List ByteRange
  | (first, last) =>
    (String.utf8EncodeChar (Char.ofNat first)).zipWith ByteRange.mk
      (String.utf8EncodeChar (Char.ofNat last))

/-- The encodings of the characters in a set, as sequences of ranges of bytes in ascending order. -/
def CharSet.encodings (s : CharSet) : List (List ByteRange) :=
  let cuts := [cutGap, cutBehind 0x7f, cutBehind 0x7ff, cutBehind 0xffff, cutBlocks 0x40,
    cutBlocks 0x1000, cutBlocks 0x40000]
  (cuts.foldl (fun rs cut => rs.flatMap cut) s.ranges).map byteRanges

/-- The first ranges of some sequences in their order, each with what follows it. -/
def branches (qs : List (List ByteRange)) : List (ByteRange × List (List ByteRange)) :=
  qs.foldr (fun q bs => match q, bs with
    | [], bs => bs
    | r :: q, (r', qs) :: bs => if r = r' then (r, q :: qs) :: bs else (r, [q]) :: (r', qs) :: bs
    | r :: q, [] => [(r, [q])]) []

/-- The states that read some sequences of up to `n` ranges, each as the sequences that it reads. -/
def readers : Nat → List (List ByteRange) → List (List (List ByteRange))
  | 0, _ => []
  | n + 1, qs =>
    if (branches qs).isEmpty then []
    else qs :: (branches qs).flatMap fun (_, rests) => readers n rests

/-- The size of the part that reads a set. Forwards, sequences that end alike share their ends; backwards,
those that start alike share their starts. -/
def setSize (backwards : Bool) (s : CharSet) : Nat :=
  if s.isAscii then stateSize + tableSize s.ranges.length
  else if backwards then
    let starts := s.encodings.flatMap fun q => (List.range q.length).map fun i => q.take (i + 1)
    stateSize + branchSize s.encodings.length + stateSize * starts.eraseDups.length
  else
    let states := (readers 4 s.encodings).eraseDups
    stateSize + total (states.map fun qs => tableSize (branches qs).length)

/-! ### Texts -/

/-- The bytes of a text. -/
def bytes (backwards : Bool) (cs : List Char) : List UInt8 :=
  let bs := cs.flatMap String.utf8EncodeChar
  if backwards then bs.reverse else bs

/-- First bytes of words, each with the rests of its words in reverse order. -/
abbrev Turnings := List (UInt8 × List (List UInt8))

/-- The words that are read from one place, in parts between those that end there. -/
structure Crossroads where
  /-- The parts that were followed by a word that ends. -/
  closed : List Turnings
  /-- The last part. -/
  last : Turnings

/-- Adds a word at a place. -/
def Crossroads.add (x : Crossroads) : List UInt8 → Crossroads
  | [] => if x.last = [] ∧ x.closed = [[]] then x else ⟨x.closed ++ [x.last], []⟩
  | b :: bs =>
    if x.last.any (·.1 = b) then
      { x with last := x.last.map fun (c, ws) => if c = b then (c, bs :: ws) else (c, ws) }
    else { x with last := x.last ++ [(b, [bs])] }

/-- The size of the part that reads one of some words of up to `n` bytes from one place. Words that start
alike share their starts, up to a word that ends where they part. -/
def wordsSize : Nat → List (List UInt8) → Nat
  | 0, _ => 0
  | n + 1, words =>
    let x := words.foldl Crossroads.add ⟨[], []⟩
    let groups := (x.closed ++ [x.last]).filter (· ≠ [])
    let tables := groups.map fun g => if g.length = 1 then stateSize else tableSize g.length
    let rests := groups.flatten.map fun (_, ws) =>
      if ws.all (· = []) then 0 else wordsSize n ws.reverse
    branchSize (groups.length + x.closed.length) + total tables + total rests

/-! ### Patterns -/

/-- What the alternatives of a pattern take. -/
structure Cost where
  /-- The number of the alternatives. -/
  alternatives : Nat
  /-- The sum of their sizes. -/
  sum : Nat
  /-- The bytes of the alternatives, if all of them are texts. -/
  words : Option (List (List UInt8))

/-- The size of a pattern with some alternatives. -/
def Cost.size (x : Cost) : Nat :=
  if x.alternatives = 1 then x.sum
  else match x.words with
    | some words =>
      stateSize + wordsSize (words.foldl (fun n w => max n w.length) 0 + 1) words
    | none => branchSize x.alternatives + stateSize + x.sum

/-- The cost of what has no alternatives. -/
def Cost.plain (size : Nat) : Cost := ⟨1, size, none⟩

/-- The size of some turns of a pattern, of which one takes `turn`; `empty` is whether it can be empty. -/
def turnsSize (turn : Nat) (empty : Bool) (least : Nat) (most : Option Nat) : Nat :=
  let exactly := if least = 0 then stateSize else least * turn
  match least, most with
  | 0, some 1 => branchSize 2 + stateSize + turn
  | 0, none =>
    if empty then branchSize 2 + branchSize 2 + stateSize + turn else branchSize 2 + turn
  | _, none => exactly + branchSize 2
  | _, some most =>
    if most ≤ least then exactly
    else exactly + stateSize + (most - least) * (branchSize 2 + turn)

/-- The cost of a pattern in one direction. Places in the text are noted forwards only. -/
def cost (backwards : Bool) : Pattern → Cost
  | .skip => .plain stateSize
  | .text cs => ⟨1, stateSize * (bytes backwards cs).length, some [bytes backwards cs]⟩
  | .one s => .plain (setSize backwards s)
  | .check _ => .plain stateSize
  | .seq p q => .plain ((p.cost backwards).size + (q.cost backwards).size)
  | .either p q =>
    let x := p.cost backwards
    let y := q.cost backwards
    ⟨x.alternatives + y.alternatives, x.sum + y.sum, do return (← x.words) ++ (← y.words)⟩
  | .repeated p least most =>
    .plain (turnsSize (p.cost backwards).size (p.least?.all (· = 0)) least most)
  | .captured _ p =>
    .plain ((p.cost backwards).size + if backwards then 0 else 2 * stateSize)

/-- What is laid out in front of a pattern: nothing if it is found at one end of the text only, and
otherwise what skips any bytes. -/
def entrySize (anchored : Bool) : Nat :=
  if anchored then stateSize else branchSize 2 + stateSize + tableSize 1

/-- The size of a pattern for reading forwards. -/
def size (p : Pattern) : Nat :=
  entrySize p.isAtStart + (cost false (.captured 0 p)).size + stateSize

/-- The size of a pattern for reading backwards. -/
def sizeBackwards (p : Pattern) : Nat :=
  entrySize p.isAtEnd + (cost true p).size + stateSize

/-- The greatest size of a pattern. -/
def sizeLimit : Nat := 10485760

end ShaderFilter.Pattern
