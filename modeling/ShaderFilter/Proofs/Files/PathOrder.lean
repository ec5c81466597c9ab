import ShaderFilter.Files.Path
import Mathlib.Order.Compare

/-!
# The order of paths

Paths are compared by their parts. A part is compared by its number and then by its text, which only
names have, and a list of parts is compared in the library's lexicographic order. So the comparison
is lawful: it is transitive and total, and only equal lists of parts are neither before nor after
each other.
-/

namespace ShaderFilter.Files

/-- The text of a name; the other parts have none. -/
def Part.text : Part → String
  | .name s => s
  | _ => ""

theorem Part.eq_of_number_text {a b : Part} (hn : a.number = b.number) (ht : a.text = b.text) :
    a = b := by
  cases a <;> cases b <;> simp_all [number, text]

theorem Part.compare_eq :
    Part.compare = compareLex (compareOn Part.number) (compareOn Part.text) := by
  funext a b
  cases a <;> cases b <;> rfl

instance : Std.TransCmp Part.compare := by
  rw [Part.compare_eq]
  infer_instance

instance : Std.LawfulEqCmp Part.compare where
  compare_self := Std.ReflCmp.compare_self
  eq_of_compare {a b} h := by
    rw [Part.compare_eq, compareLex_eq_eq] at h
    exact Part.eq_of_number_text (Std.LawfulEqCmp.eq_of_compare h.1)
      (Std.LawfulEqCmp.eq_of_compare h.2)

namespace Path

theorem compareParts_eq : compareParts = List.compareLex Part.compare := by
  funext as bs
  induction as generalizing bs with
  | nil => cases bs <;> rfl
  | cons a as ih =>
    cases bs with
    | nil => rfl
    | cons b bs => rw [compareParts, ih, List.compareLex_cons_cons]

instance : Std.TransCmp compareParts := by
  rw [compareParts_eq]
  infer_instance

instance : Std.LawfulEqCmp compareParts := by
  rw [compareParts_eq]
  infer_instance

theorem le_eq (a b : String) : le a b = (compareParts (parts a) (parts b)).isLE := by
  rw [le]
  cases compareParts (parts a) (parts b) <;> rfl

end Path

end ShaderFilter.Files
