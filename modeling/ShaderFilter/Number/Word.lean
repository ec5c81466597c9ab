import ShaderFilter.Number.Digits
import ShaderFilter.Text.Blank

/-!
# Words

Signed integers of 32 bits. Arithmetic is exact and then saturates: a result outside the range
becomes the nearer limit.
-/

namespace ShaderFilter.Number

/-- A signed integer of 32 bits. -/
structure Word where
  /-- The integer. -/
  val : Int
  /-- It is not below the least word. -/
  least_le : -2147483648 ≤ val
  /-- It is not above the greatest word. -/
  le_greatest : val ≤ 2147483647
  deriving DecidableEq

namespace Word

@[ext] theorem ext {a b : Word} (h : a.val = b.val) : a = b := by
  cases a; cases b; cases h; rfl

/-- The word of an integer in range. -/
def ofInt? (n : Int) : Option Word :=
  if h : -2147483648 ≤ n ∧ n ≤ 2147483647 then some ⟨n, h.1, h.2⟩ else none

/-- The least word. -/
def least : Word := ⟨-2147483648, by decide, by decide⟩

/-- The greatest word. -/
def greatest : Word := ⟨2147483647, by decide, by decide⟩

/-- The word zero. -/
def zero : Word := ⟨0, by decide, by decide⟩

instance : Inhabited Word := ⟨zero⟩

/-- The word nearest to an integer. -/
def saturate (n : Int) : Word :=
  if hl : n < -2147483648 then least
  else if hg : 2147483647 < n then greatest
  else ⟨n, by omega, by omega⟩

/-- The sum, saturated. -/
def add (a b : Word) : Word := saturate (a.val + b.val)

/-- The product, saturated. -/
def multiply (a b : Word) : Word := saturate (a.val * b.val)

/-- Whether `a` is below `b`. -/
def less (a b : Word) : Bool := a.val < b.val

/-- Reads a word: an integer in range, with blanks around it. -/
def read? (s : String) : Option Word := integer? (Text.strip Text.isBlank s.toList) >>= ofInt?

/-- The decimal notation of a word. -/
def text (a : Word) : String := integerText a.val

/-- Saturation leaves a word as it is. -/
@[simp] theorem saturate_val (a : Word) : saturate a.val = a := by
  have := a.least_le
  have := a.le_greatest
  simp only [saturate]
  split
  · omega
  · split
    · omega
    · rfl

end Word

end ShaderFilter.Number
