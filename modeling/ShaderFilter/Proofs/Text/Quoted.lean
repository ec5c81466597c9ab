import ShaderFilter.Text.Quoted
import Mathlib.Data.List.Basic

/-!
# Quoted strings, read back

A quoted string can be read from left to right: an escaped character is not the start of another
one, and none of them starts with the closing quote. So the string is known where its closing
quote is reached, whatever comes after it (`quote_append_inj`).
-/

namespace ShaderFilter.Text

/-- The number of a hexadecimal digit. -/
def hexValue (c : Char) : Nat := if c.isDigit then c.toNat - '0'.toNat else c.toNat - 'a'.toNat + 10

/-- The character for what comes after a backslash, and the rest. -/
def unescaped? : List Char → Option (Char × List Char)
  | 'u' :: _ :: _ :: a :: b :: cs => some (Char.ofNat (16 * hexValue a + hexValue b), cs)
  | 'b' :: cs => some ('\x08', cs)
  | 'f' :: cs => some ('\x0c', cs)
  | 'n' :: cs => some ('\n', cs)
  | 'r' :: cs => some ('\r', cs)
  | 't' :: cs => some ('\t', cs)
  | c :: cs => some (c, cs)
  | [] => none

/-- The first character of the inside of a quoted string, and the rest; none at its end. -/
def unescape? : List Char → Option (Char × List Char)
  | '\\' :: cs => unescaped? cs
  | '"' :: _ => none
  | c :: cs => some (c, cs)
  | [] => none

theorem hexValue_hexDigit : ∀ n < 16, hexValue (hexDigit n) = n := by decide

/-- What is escaped is read back. -/
theorem unescape?_escape (c : Char) (cs : List Char) :
    unescape? (escape c ++ cs) = some (c, cs) := by
  unfold escape
  split_ifs with hquote hslash hb hf hn hr ht hcontrol
  · rw [hquote]; rfl
  · rw [hslash]; rfl
  · rw [hb]; rfl
  · rw [hf]; rfl
  · rw [hn]; rfl
  · rw [hr]; rfl
  · rw [ht]; rfl
  · have hhigh := hexValue_hexDigit (c.toNat / 16) (by omega)
    have hlow := hexValue_hexDigit (c.toNat % 16) (by omega)
    have hcode : 16 * (c.toNat / 16) + c.toNat % 16 = c.toNat := Nat.div_add_mod _ _
    simp [unescape?, unescaped?, hhigh, hlow, hcode]
  · rw [List.singleton_append, unescape?]
    · exact hslash
    · exact hquote

/-- Two quoted strings that are the same up to what comes after them are the same. -/
theorem flatMap_escape_append_inj {cs ds r s : List Char}
    (h : cs.flatMap escape ++ '"' :: r = ds.flatMap escape ++ '"' :: s) : cs = ds ∧ r = s := by
  induction cs generalizing ds with
  | nil =>
    cases ds with
    | nil => exact ⟨rfl, (List.cons.inj h).2⟩
    | cons d ds =>
      have := congrArg unescape? h
      rw [List.flatMap_cons, List.append_assoc, unescape?_escape] at this
      cases this
  | cons c cs ih =>
    have hread := congrArg unescape? h
    rw [List.flatMap_cons, List.append_assoc, unescape?_escape] at hread
    cases ds with
    | nil => cases hread
    | cons d ds =>
      rw [List.flatMap_cons, List.append_assoc, unescape?_escape] at hread
      obtain ⟨rfl, hrest⟩ := Prod.mk.inj (Option.some.inj hread)
      obtain ⟨rfl, rfl⟩ := ih hrest
      exact ⟨rfl, rfl⟩

theorem quote_append_inj {s t : String} {r q : List Char}
    (h : (quote s).toList ++ r = (quote t).toList ++ q) : s = t ∧ r = q := by
  simp only [quote, String.toList_ofList, List.cons_append, List.append_assoc,
    List.cons.injEq, true_and] at h
  obtain ⟨hchars, hrest⟩ := flatMap_escape_append_inj h
  exact ⟨String.toList_injective hchars, hrest⟩

end ShaderFilter.Text
