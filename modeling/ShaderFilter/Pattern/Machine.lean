import ShaderFilter.Pattern

/-!
# Searching for patterns

A pattern is laid out as a machine: a numbered list of steps, of which each goes on to other ones. The
machine reads a text once. At each place of the text it follows all steps that take no character, from those
that it has come to and from its first one, and comes by the next character to the steps for the next place
(`Machine.searchFrom`). As no step is looked at twice at a place, the time is bounded by the number of steps
and the length of the text.
-/

namespace ShaderFilter.Pattern

/-- A step of a machine. Other steps are given by their numbers. -/
inductive Step where
  /-- The pattern has been found. -/
  | found
  /-- Takes a character. -/
  | char (c : Char) (next : Nat)
  /-- Takes a character of a set. -/
  | one (s : CharSet) (next : Nat)
  /-- Goes on at a place of some kind. -/
  | check (a : Assertion) (next : Nat)
  /-- Goes on with either of two steps. -/
  | fork (left right : Nat)

/-- A pattern that is laid out in steps. -/
structure Machine where
  /-- The steps. -/
  steps : Array Step
  /-- The number of the first one. -/
  start : Nat

/-- Adds steps to a machine. -/
abbrev Layout := StateM (Array Step)

namespace Layout

/-- Adds a step, and gives its number. -/
def add (s : Step) : Layout Nat := modifyGet fun steps => (steps.size, steps.push s)

/-- Adds a step that goes on with either of two steps, of which the left one is laid out behind it and may
come back to it. -/
def loop (left : Nat → Layout Nat) (right : Nat) : Layout Nat := do
  let i ← add (.fork right right)
  let body ← left i
  modify fun steps => steps.setIfInBounds i (.fork body right)
  return i

/-- Lays something out `n` times, each time in front of what there is. -/
def times (n : Nat) (f : Nat → Layout Nat) (next : Nat) : Layout Nat :=
  match n with
  | 0 => return next
  | n + 1 => do times n f (← f next)

/-- Lays out a pattern in front of a step, and gives the number of its first step. -/
def pattern : Pattern → (next : Nat) → Layout Nat
  | .skip, next => return next
  | .text cs, next => cs.foldrM (fun c next => add (.char c next)) next
  | .one s, next => add (.one s next)
  | .check a, next => add (.check a next)
  | .seq p q, next => do pattern p (← pattern q next)
  | .either p q, next => do add (.fork (← pattern p next) (← pattern q next))
  | .repeated p least most, next => do
    let optional ← match most with
      | none => loop (fun i => pattern p i) next
      | some most => times (most - least) (fun i => do add (.fork (← pattern p i) next)) next
    times least (fun i => pattern p i) optional
  | .captured _ p, next => pattern p next

end Layout

/-- The machine of a pattern. -/
def machine (p : Pattern) : Machine :=
  let (start, steps) := (Layout.pattern p 0).run #[.found]
  ⟨steps, start⟩

namespace Machine

/-- What has been come to at a place of a text. -/
structure Reached where
  /-- Whether the pattern has been found. -/
  found : Bool
  /-- For each step the number of the last place at which it was looked at. -/
  places : Array Nat
  /-- The steps for the next place. -/
  next : List Nat

/-- Looks at steps at the place with a number, between two characters; at most `fuel` of them. -/
def look (m : Machine) (before after : Option Char) (place : Nat) :
    (fuel : Nat) → (todo : List Nat) → (places : Array Nat) → (next : List Nat) → Reached
  | 0, _, places, next => ⟨false, places, next⟩
  | _ + 1, [], places, next => ⟨false, places, next⟩
  | fuel + 1, i :: todo, places, next =>
    if places.getD i 0 = place then m.look before after place fuel todo places next
    else
      let places := places.setIfInBounds i place
      match m.steps[i]? with
      | some .found => ⟨true, places, next⟩
      | some (.char c j) =>
        m.look before after place fuel todo places (if after = some c then j :: next else next)
      | some (.one s j) =>
        m.look before after place fuel todo places (if after.any s.contains then j :: next else next)
      | some (.check a j) =>
        m.look before after place fuel (if a.holds before after then j :: todo else todo) places next
      | some (.fork j k) => m.look before after place fuel (j :: k :: todo) places next
      | none => m.look before after place fuel todo places next

/-- Whether the pattern is found in the rest of a text, at the place with a number, where some steps have
been come to. A step leads to two other ones at most, which bounds the steps to look at. -/
def searchFrom (m : Machine) (before : Option Char) (place : Nat) (todo : List Nat)
    (places : Array Nat) (text : List Char) : Bool :=
  let todo := m.start :: todo
  let reached := m.look before text.head? place (todo.length + 2 * m.steps.size) todo places []
  reached.found ||
    match text with
    | [] => false
    | c :: cs => m.searchFrom (some c) (place + 1) reached.next reached.places cs

/-- Whether the pattern occurs in a text. -/
def occursIn (m : Machine) (text : String) : Bool :=
  m.searchFrom none 1 [] (Array.replicate m.steps.size 0) text.toList

end Machine

end ShaderFilter.Pattern
