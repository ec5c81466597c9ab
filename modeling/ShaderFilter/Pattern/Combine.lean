import ShaderFilter.Pattern

/-!
# Combining patterns

Patterns are put together in a shortened form: texts side by side are one text, alternatives of single
characters are one set, what all alternatives start with stands in front of them, and repetitions are left
out where they make no difference. The form decides how large a pattern is when it is prepared
(`Pattern.size`), and what is left out is not looked at any more.
-/

namespace ShaderFilter.Pattern

/-- The length of the shortest text that a pattern takes, in bytes; none if it takes no text. -/
def least? : Pattern → Option Nat
  | .skip => some 0
  | .text cs => some (String.ofList cs).utf8ByteSize
  | .one s => s.ranges.head?.map fun r => (Char.ofNat r.1).utf8Size
  | .check _ => some 0
  | .seq p q => do return (← p.least?) + (← q.least?)
  | .either p q => do return min (← p.least?) (← q.least?)
  | .repeated p least _ => p.least?.map (· * least)
  | .captured _ p => p.least?

/-- The length of the longest text that a pattern takes, in bytes; none if there is no longest one or if
it takes no text. -/
def most? : Pattern → Option Nat
  | .skip => some 0
  | .text cs => some (String.ofList cs).utf8ByteSize
  | .one s => s.ranges.getLast?.map fun r => (Char.ofNat r.2).utf8Size
  | .check _ => some 0
  | .seq p q => do return (← p.most?) + (← q.most?)
  | .either p q => do return max (← p.most?) (← q.most?)
  | .repeated p _ most => do return (← p.most?) * (← most)
  | .captured _ p => p.most?

/-- A pattern for one character of a set. -/
def ofSet (s : CharSet) : Pattern :=
  match s.ranges with
  | [(first, last)] => if first = last then .text [Char.ofNat first] else .one s
  | _ => .one s

/-- A pattern some number of times. What can only be empty is taken once at most. -/
def times (p : Pattern) (least : Nat) (most : Option Nat) : Pattern :=
  let empty := p.most? = some 0
  let least := if empty then min least 1 else least
  let most := if empty then some ((most.map (min 1 ·)).getD 1) else most
  if least = 0 ∧ most = some 0 then .skip
  else if least = 1 ∧ most = some 1 then p
  else .repeated p least most

/-- The patterns that stand one after the other in a pattern. -/
def parts : Pattern → List Pattern
  | .skip => []
  | .seq p q => p.parts ++ q.parts
  | p => [p]

/-- Puts a part in front of others; texts side by side become one. -/
def joinPart : Pattern → List Pattern → List Pattern
  | .text cs, .text ds :: ps => .text (cs ++ ds) :: ps
  | p, ps => p :: ps

/-- Some parts one after the other. -/
def ofParts : List Pattern → Pattern
  | [] => .skip
  | [p] => p
  | p :: ps => .seq p (ofParts ps)

/-- Some patterns one after the other. -/
def sequence (ps : List Pattern) : Pattern := ofParts ((ps.flatMap parts).foldr joinPart [])

/-- The alternatives of a pattern. -/
def alternatives : Pattern → List Pattern
  | .either p q => p.alternatives ++ q.alternatives
  | p => [p]

/-- One of some patterns. -/
def ofAlternatives : List Pattern → Pattern
  | [] => .one .empty
  | [p] => p
  | p :: ps => .either p (ofAlternatives ps)

/-- The single characters that some patterns stand for, if all of them are characters. -/
def characters? (ps : List Pattern) : Option CharSet :=
  ps.foldrM (fun p s => match p with
    | .text [c] => some (CharSet.single c |>.union s)
    | _ => none) CharSet.empty

/-- The union of the sets that some patterns stand for, if all of them are sets. -/
def sets? (ps : List Pattern) : Option CharSet :=
  ps.foldrM (fun p s => match p with
    | .one t => some (t.union s)
    | _ => none) CharSet.empty

/-- One of some alternatives. If all are single characters or all are sets, that is a set. -/
def merge (ps : List Pattern) : Pattern :=
  match ps with
  | [p] => p
  | _ =>
    match characters? ps <|> sets? ps with
    | some s => ofSet s
    | none => ofAlternatives ps

/-- What two lists have in common at their starts. -/
def commonStart : List Pattern → List Pattern → List Pattern
  | p :: ps, q :: qs => if p = q then p :: commonStart ps qs else []
  | _, _ => []

/-- The parts with which all of some sequences of two parts or more start. -/
def commonParts (ps : List (List Pattern)) : List Pattern :=
  match ps with
  | [] => []
  | first :: others =>
    if ps.all (2 ≤ ·.length) then others.foldl commonStart first else []

/-- One of some patterns. The parts that all of them start with stand in front. -/
def choice (ps : List Pattern) : Pattern :=
  let ps := ps.flatMap alternatives
  let sequences := ps.map parts
  match merge ps, commonParts sequences with
  | .either _ _, p :: front =>
    let rests := sequences.map fun q => sequence (q.drop (front.length + 1))
    sequence (p :: front ++ [merge (rests.flatMap alternatives)])
  | merged, _ => merged

/-- Whether a pattern is found at the start of the text only. -/
def isAtStart : Pattern → Bool
  | .check a => a = .textStart
  | .seq p q => p.isAtStart || (p.most? = some 0 && q.isAtStart)
  | .either p q => p.isAtStart && q.isAtStart
  | .repeated p least _ => 0 < least && p.isAtStart
  | .captured _ p => p.isAtStart
  | _ => false

/-- Whether a pattern is found at the end of the text only. -/
def isAtEnd : Pattern → Bool
  | .check a => a = .textEnd
  | .seq p q => q.isAtEnd || (q.most? = some 0 && p.isAtEnd)
  | .either p q => p.isAtEnd && q.isAtEnd
  | .repeated p least _ => 0 < least && p.isAtEnd
  | .captured _ p => p.isAtEnd
  | _ => false

/-- Whether a pattern asks for the edges of words that are not made of ASCII characters only. -/
def asksUnicodeEdge : Pattern → Bool
  | .check (.edge _ unicode) => unicode
  | .seq p q | .either p q => p.asksUnicodeEdge || q.asksUnicodeEdge
  | .repeated p _ _ | .captured _ p => p.asksUnicodeEdge
  | _ => false

end ShaderFilter.Pattern
