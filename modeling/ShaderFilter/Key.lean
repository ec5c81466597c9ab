import ShaderFilter.Key.Names
import ShaderFilter.Number.Word
import ShaderFilter.OrderedMap

/-!
# Keys

A key is given by its code. A filter script may write its name, one of its further names, or the code
as an integer; names are case-sensitive.
-/

namespace ShaderFilter

/-- A key of the keyboard. -/
structure Key where
  /-- The code of the key. -/
  code : Fin 173
  deriving DecidableEq

namespace Key

/-- Keys are ordered by their codes. -/
instance : Ranked Key where
  rank k := k.code
  rank_injective {a b} h := by cases a; cases b; simpa [Fin.ext_iff] using h

/-- The own name of the key with a code, and its further names. -/
def namesOf (code : Fin 173) : String × List String := keyNames.get (code.cast length_keyNames.symm)

/-- The name of a key. -/
def name (k : Key) : String := (namesOf k.code).1

/-- The key with a code. -/
def ofCode? (code : Int) : Option Key :=
  if h : 0 ≤ code ∧ code < 173 then some ⟨code.toNat, by omega⟩ else none

/-- Every accepted name with its key: the keys by code, the own name before the further names. -/
def names : List (String × Key) :=
  (List.finRange 173).flatMap fun code =>
    ((namesOf code).1 :: (namesOf code).2).map fun name => (name, ⟨code⟩)

/-- The key with a name. -/
def ofName? (word : String) : Option Key := (names.find? fun entry => entry.1 == word).map (·.2)

/-- The key that a word stands for: by name, or else by its code. -/
def read? (word : String) : Option Key :=
  ofName? word <|> (Number.integer? word.toList >>= ofCode?)

end Key

end ShaderFilter
