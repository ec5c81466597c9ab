/-!
# Ranges of code points

A property of characters, given by the ranges of the code points that have it.
-/

namespace ShaderFilter.Text

/-- Whether the code point of a character is in one of some ranges, each given by its ends. -/
def inRanges (ranges : List (Nat × Nat)) (c : Char) : Bool :=
  ranges.any fun (first, last) => first ≤ c.toNat && c.toNat ≤ last

end ShaderFilter.Text
