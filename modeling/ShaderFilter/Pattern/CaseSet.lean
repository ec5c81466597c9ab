import ShaderFilter.Pattern.CharSet

/-!
# Sets and the case of letters

A set with a note whether it is known to hold each of its letters in both cases. The other case of letters
is known in ASCII only, so a set beyond it can be completed only where nothing is missing.
-/

namespace ShaderFilter.Pattern

/-- A set that is put together from items. -/
structure CaseSet where
  /-- The characters so far. -/
  chars : CharSet
  /-- Whether each of its letters is known to be there in both cases. -/
  bothCases : Bool

namespace CaseSet

/-- Whether there is no character. -/
def isEmpty (s : CaseSet) : Bool := s.chars.ranges.isEmpty

/-- No character. -/
def empty : CaseSet := ⟨.empty, true⟩

/-- A set with further characters, of which the case is not looked at. -/
def add (s : CaseSet) (t : CharSet) : CaseSet := ⟨s.chars.union t, false⟩

/-- The characters of either set. -/
def union (a b : CaseSet) : CaseSet :=
  if b.isEmpty ∨ a.chars = b.chars then a
  else ⟨a.chars.union b.chars, a.bothCases && b.bothCases⟩

/-- The characters of both sets. -/
def inter (a b : CaseSet) : CaseSet :=
  if a.isEmpty then a
  else if b.isEmpty then empty
  else ⟨a.chars.inter b.chars, a.bothCases && b.bothCases⟩

/-- The characters of the first set that are not in the second one. -/
def difference (a b : CaseSet) : CaseSet :=
  if a.isEmpty || b.isEmpty then a
  else ⟨a.chars.difference b.chars, a.bothCases && b.bothCases⟩

/-- The characters of exactly one of two sets. -/
def symmetricDifference (a b : CaseSet) : CaseSet := (a.union b).difference (a.inter b)

/-- The characters that are not in the set. -/
def complement (a : CaseSet) : CaseSet := ⟨a.chars.complement, a.isEmpty || a.bothCases⟩

/-- A set with all letters in both cases; none if the other case of a letter is not known. -/
def complete? (unicode : Bool) (s : CaseSet) : Option CaseSet :=
  if s.isEmpty || s.bothCases then some ⟨s.chars, true⟩
  else if unicode then none
  else some ⟨s.chars.anyCase, true⟩

end CaseSet

end ShaderFilter.Pattern
