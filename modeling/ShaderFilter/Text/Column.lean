/-!
# Columns

Filling a text up with spaces to a width, counted in characters. A longer text stays as it is.
-/

namespace ShaderFilter.Text

/-- The spaces that `s` lacks to be `width` characters long. -/
def filling (width : Nat) (s : String) : String := String.ofList (List.replicate (width - s.length) ' ')

/-- `s` at the left of a column. -/
def padRight (width : Nat) (s : String) : String := s ++ filling width s

/-- `s` at the right of a column. -/
def padLeft (width : Nat) (s : String) : String := filling width s ++ s

end ShaderFilter.Text
