import ShaderFilter.Text.Blank

/-!
# Fields

The arguments of a directive are fields separated by commas, each without the spaces around it.
A setting takes the text after its first comma as a whole, so titles may contain commas.
-/

namespace ShaderFilter.Text

/-- The pieces of `cs` between the separators; one more than there are separators. -/
def pieces (sep : Char) : List Char → List (List Char)
  | [] => [[]]
  | c :: cs => if c = sep then [] :: pieces sep cs else (pieces sep cs).modifyHead (c :: ·)

/-- The fields of an argument text. -/
def fields (args : String) : List String :=
  (pieces ',' args.toList).map fun piece => String.ofList (strip isSpace piece)

/-- The text after the first comma, without the spaces around it; empty if there is no comma. -/
def tail (args : String) : String :=
  String.ofList (strip isSpace ((args.toList.dropWhile (· != ',')).drop 1))

theorem length_pieces (sep : Char) (cs : List Char) : (pieces sep cs).length = cs.count sep + 1 := by
  induction cs with
  | nil => rfl
  | cons c cs ih => by_cases h : c = sep <;> simp [pieces, h, ih]

end ShaderFilter.Text
