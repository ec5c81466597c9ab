/-!
# Keywords

A keyword is a word of a fixed vocabulary, written in any mix of ASCII upper and lower case.
-/

namespace ShaderFilter.Text

/-- `s` with the ASCII letters in lower case; all other characters stay. -/
def lower (s : String) : String := String.ofList (s.toList.map Char.toLower)

/-- The meaning of a word in a vocabulary, whose words are given in lower case. -/
def keyword? {α : Type} (vocabulary : List (String × α)) (word : String) : Option α :=
  (vocabulary.find? fun entry => entry.1 == lower word).map (·.2)

/-- Words that differ in the case of ASCII letters only have the same meaning. -/
theorem keyword?_congr {α : Type} {v : List (String × α)} {a b : String} (h : lower a = lower b) :
    keyword? v a = keyword? v b := by
  rw [keyword?, keyword?, h]

end ShaderFilter.Text
