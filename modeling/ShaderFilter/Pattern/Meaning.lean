import ShaderFilter.Pattern.CaseSet
import ShaderFilter.Pattern.Combine
import ShaderFilter.Pattern.Tree

/-!
# What written patterns mean

The pattern that a tree stands for under the flags in effect, which the tree sets and takes away on the way.
Classes and the case of letters are known in ASCII only: a tree that asks for them beyond ASCII is refused,
unless it takes the flag for Unicode away. A pattern takes whole characters, so without that flag nothing
may be asked for that could be a part of a character.
-/

namespace ShaderFilter.Pattern

/-- The flags that are in effect at a place. -/
structure Mode where
  /-- Letters stand for both cases. -/
  anyCase : Bool := false
  /-- Line starts and ends count as starts and ends. -/
  multiLine : Bool := false
  /-- The dot takes line ends too. -/
  dotAll : Bool := false
  /-- Characters are those of Unicode. -/
  unicode : Bool := true
  /-- Lines end with carriage returns too. -/
  crlf : Bool := false

/-- Sets a flag or takes it away. -/
def Mode.set (m : Mode) (on : Bool) : Flag → Mode
  | .anyCase => { m with anyCase := on }
  | .multiLine => { m with multiLine := on }
  | .dotAll => { m with dotAll := on }
  | .unicode => { m with unicode := on }
  | .crlf => { m with crlf := on }
  | .swapGreed | .loose => m

/-- Sets the flags in front of a minus sign and takes those behind it away. -/
def Mode.setAll (m : Mode) (on : Bool) : List (Option Flag) → Mode
  | [] => m
  | none :: items => m.setAll false items
  | some f :: items => (m.set on f).setAll on items

/-- Refuses a part. -/
def refused {α : Type} (cause : Cause) (span : Span) : Except Mistake α := throw ⟨cause, span, none⟩

/-! ### Classes -/

/-- The set of a letter for a class. -/
def classSet (letter : Char) : CharSet :=
  match letter.toLower with
  | 'd' => CharSet.digits
  | 's' => CharSet.spaces
  | _ => CharSet.wordChars

/-- A name as names of properties are compared: without the prefix `is`, blanks, hyphens, underscores and
what is not ASCII, and in lower case. -/
def plainName (name : List Char) : List Char :=
  let name := match name with
    | a :: b :: rest => if a.toLower = 'i' ∧ b.toLower = 's' then rest else name
    | _ => name
  (name.filter fun c => c.toNat < 0x80 && c != ' ' && c != '_' && c != '-').map Char.toLower

/-- Why a property is not known. Three names stand for a value of the general category, and the others for
properties. -/
def propertyCause (name : List Char) : Cause :=
  if String.ofList (plainName name) ∈ ["cf", "sc", "lc"] then .unknownPropertyValue
  else .unknownProperty

/-- The set of a short name. -/
def Shorthand.set (m : Mode) (span : Span) : Shorthand → Except Mistake CharSet
  | .letter c =>
    if m.unicode then refused .unknownClass span
    else if c.isUpper then refused .partOfCharacter span
    else return classSet c
  | .property name => refused (if m.unicode then propertyCause name else .asciiOnly) span

/-! ### Sets -/

/-- A character in a set. -/
def Literal.member (m : Mode) (l : Literal) : Except Mistake Char :=
  if m.unicode || l.char.toNat < 0x80 then return l.char
  else refused (if l.byte then .partOfCharacter else .asciiOnly) l.span

/-- A set with the letters in both cases where a flag says so. -/
def completed (m : Mode) (span : Span) (s : CaseSet) : Except Mistake CaseSet :=
  if !m.anyCase then return s
  else match s.complete? m.unicode with
    | some s => return s
    | none => refused .unknownCase span

/-- A completed set, turned over if it is negated. -/
def closed (m : Mode) (negated : Bool) (span : Span) (s : CaseSet) : Except Mistake CaseSet := do
  let s ← completed m span s
  if !negated then return s
  if !m.unicode then refused .partOfCharacter span
  return s.complement

/-- The function of an operation. -/
def SetOperation.apply : SetOperation → CaseSet → CaseSet → CaseSet
  | .inter => CaseSet.inter
  | .difference => CaseSet.difference
  | .symmetricDifference => CaseSet.symmetricDifference

mutual

/-- A set together with what a tree stands for. -/
def SetTree.onto (m : Mode) (s : CaseSet) : SetTree → Except Mistake CaseSet
  | .empty _ => return s
  | .literal l => return s.add (.single (← l.member m))
  | .range first last => return s.add (.range (← first.member m) (← last.member m))
  | .named negated t span => return s.union (← closed m negated span ⟨t, false⟩)
  | .shorthand k span => return s.union ⟨← k.set m span, false⟩
  | .bracket negated inner span => return s.union (← closed m negated span (← inner.onto m .empty))
  | .union items _ => SetTree.allOnto m s items
  | .combined op left right => do
    let a ← left.onto m .empty
    let b ← right.onto m .empty
    let b ← completed m right.span b
    let a ← completed m left.span a
    return s.union (op.apply a b)

/-- A set together with what some trees stand for. -/
def SetTree.allOnto (m : Mode) (s : CaseSet) : List SetTree → Except Mistake CaseSet
  | [] => return s
  | t :: ts => do SetTree.allOnto m (← t.onto m s) ts

end

/-! ### Patterns -/

/-- What the pattern of a part depends on and changes. -/
abbrev Meaning := StateT Mode (Except Mistake)

/-- The pattern of a character. -/
def Literal.pattern (m : Mode) (l : Literal) : Except Mistake Pattern :=
  if !m.unicode && l.byte && 0x80 ≤ l.char.toNat then refused .partOfCharacter l.span
  else if !m.anyCase then return .text [l.char]
  else if m.unicode then refused .unknownCase l.span
  else return ofSet (CharSet.single l.char).anyCase

/-- The pattern of a dot. -/
def dotPattern (m : Mode) (span : Span) : Except Mistake Pattern :=
  if !m.unicode then refused .partOfCharacter span
  else if m.dotAll then return ofSet (CharSet.complement .empty)
  else
    let ends := if m.crlf then [('\n', '\n'), ('\r', '\r')] else [('\n', '\n')]
    return ofSet (CharSet.ofRanges ends).complement

/-- What a mark demands. -/
def Mark.assertion (m : Mode) : Mark → Assertion
  | .lineStart => if m.multiLine then .lineStart m.crlf else .textStart
  | .lineEnd => if m.multiLine then .lineEnd m.crlf else .textEnd
  | .textStart => .textStart
  | .textEnd => .textEnd
  | .edge e => .edge e m.unicode

mutual

/-- The pattern that a tree stands for. -/
def Tree.pattern : Tree → Meaning Pattern
  | .empty => return .skip
  | .flags items => do
    modify (·.setAll true items)
    return .skip
  | .literal l => do l.pattern (← get)
  | .dot span => do dotPattern (← get) span
  | .mark k => return .check (k.assertion (← get))
  | .shorthand k span => return ofSet (← k.set (← get) span)
  | .set s => return ofSet (← s.onto (← get) .empty).chars
  | .repeated t least most _ => return (← t.pattern).times least most
  | .captured index t _ => do
    let outer ← get
    let p ← t.pattern
    modify fun _ => outer
    return .captured index p
  | .group items t _ => do
    let outer ← get
    modify (·.setAll true items)
    let p ← t.pattern
    modify fun _ => outer
    return p
  | .sequence parts _ => return Pattern.sequence (← Tree.patterns parts)
  | .choice parts _ => return Pattern.choice (← Tree.patterns parts)

/-- The patterns that some trees stand for. -/
def Tree.patterns : List Tree → Meaning (List Pattern)
  | [] => return []
  | t :: ts => do
    let p ← t.pattern
    return p :: (← Tree.patterns ts)

end

end ShaderFilter.Pattern
