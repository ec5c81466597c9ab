import ShaderFilter.Text.Fields
import ShaderFilter.Text.Keyword
import Mathlib.Data.List.Basic
import Mathlib.Data.List.Induction

/-!
# Pieces and fields

Arguments are cut at commas, and each piece is stripped of spaces. So a space at an end of a
piece changes no field (`strippedPieces_cons_space`, `strippedPieces_snoc_space`); and since
commas and spaces are no letters, a text in lower case has the fields in lower case
(`fields_lower`).

Cutting is the library's `List.splitOn`, from which its laws are taken.
-/

namespace ShaderFilter.Text

/-! ### Pieces -/

section

variable {sep : Char}

theorem pieces_eq_splitOn (sep : Char) (cs : List Char) : pieces sep cs = cs.splitOn sep := by
  induction cs with
  | nil => rfl
  | cons c cs ih =>
    by_cases hc : c = sep <;> simp [pieces, hc, ih, List.splitOn_cons_eq_if_modifyHead]

theorem pieces_ne_nil (sep : Char) (cs : List Char) : pieces sep cs ≠ [] := by
  rw [pieces_eq_splitOn]
  exact List.splitOn_ne_nil sep cs

/-- One empty piece is the piece of the empty text. -/
theorem pieces_eq_nil_singleton (sep : Char) (cs : List Char) :
    pieces sep cs = [[]] ↔ cs = [] := by
  constructor
  · intro h
    have hcs : [sep].intercalate (cs.splitOn sep) = cs := List.intercalate_splitOn sep
    rw [← hcs, ← pieces_eq_splitOn, h]
    rfl
  · rintro rfl
    rfl

/-- The pieces of two texts with a separator between them. -/
theorem pieces_append (sep : Char) (cs ds : List Char) :
    pieces sep (cs ++ sep :: ds) = pieces sep cs ++ pieces sep ds := by
  simp only [pieces_eq_splitOn, List.splitOn_eq_splitOnP]
  exact List.splitOnP_append_cons cs ds (beq_self_eq_true sep)

/-- A separator belongs to no piece. -/
theorem not_mem_of_mem_pieces {cs piece : List Char} (h : piece ∈ pieces sep cs) :
    sep ∉ piece := by
  induction cs generalizing piece with
  | nil =>
    obtain rfl := List.mem_singleton.1 h
    exact List.not_mem_nil
  | cons c cs ih =>
    by_cases hc : c = sep
    · rw [pieces, if_pos hc] at h
      rcases List.mem_cons.1 h with rfl | h
      · exact List.not_mem_nil
      · exact ih h
    · obtain ⟨p, ps, hps⟩ := List.exists_cons_of_ne_nil (pieces_ne_nil sep cs)
      rw [pieces, if_neg hc, hps, List.modifyHead_cons] at h
      rcases List.mem_cons.1 h with rfl | h
      · have hp : sep ∉ p := ih (hps ▸ List.mem_cons_self)
        simpa [hp] using Ne.symm hc
      · exact ih (hps ▸ List.mem_cons_of_mem p h)

/-- Pieces are texts without the separator that are the text with separators between them. -/
theorem pieces_eq_iff {cs : List Char} {ps : List (List Char)} :
    pieces sep cs = ps ↔ ps ≠ [] ∧ (∀ piece ∈ ps, sep ∉ piece) ∧ [sep].intercalate ps = cs := by
  constructor
  · rintro rfl
    refine ⟨pieces_ne_nil sep cs, fun piece => not_mem_of_mem_pieces, ?_⟩
    rw [pieces_eq_splitOn]
    exact List.intercalate_splitOn sep
  · rintro ⟨hne, hps, rfl⟩
    rw [pieces_eq_splitOn]
    exact List.splitOn_intercalate sep hps hne

theorem pieces_eq_singleton {cs piece : List Char} :
    pieces sep cs = [piece] ↔ sep ∉ cs ∧ piece = cs := by
  rw [pieces_eq_iff]
  simp only [List.forall_mem_singleton, List.intercalate_singleton]
  constructor
  · rintro ⟨-, hmem, rfl⟩
    exact ⟨hmem, rfl⟩
  · rintro ⟨hmem, rfl⟩
    exact ⟨List.cons_ne_nil _ _, hmem, rfl⟩

theorem pieces_eq_pair {cs front back : List Char} :
    pieces sep cs = [front, back] ↔ sep ∉ front ∧ sep ∉ back ∧ cs = front ++ sep :: back := by
  have hjoin : [sep].intercalate [front, back] = front ++ sep :: back := by
    simp [List.intercalate]
  rw [pieces_eq_iff, hjoin, List.forall_mem_cons, List.forall_mem_singleton]
  constructor
  · rintro ⟨-, ⟨hfront, hback⟩, rfl⟩
    exact ⟨hfront, hback, rfl⟩
  · rintro ⟨hfront, hback, rfl⟩
    exact ⟨List.cons_ne_nil _ _, ⟨hfront, hback⟩, rfl⟩

/-- A character at the end belongs to the last piece. -/
theorem pieces_snoc {c : Char} (hc : c ≠ sep) (cs : List Char) :
    ∃ ps p, pieces sep cs = ps ++ [p] ∧ pieces sep (cs ++ [c]) = ps ++ [p ++ [c]] := by
  induction cs with
  | nil => exact ⟨[], [], rfl, by simp [pieces, hc]⟩
  | cons d cs ih =>
    obtain ⟨ps, p, hps, hsnoc⟩ := ih
    by_cases hd : d = sep
    · exact ⟨[] :: ps, p, by simp [pieces, hd, hps], by simp [pieces, hd, hsnoc]⟩
    · cases ps with
      | nil => exact ⟨[], d :: p, by simp [pieces, hd, hps], by simp [pieces, hd, hsnoc]⟩
      | cons q ps =>
        exact ⟨(d :: q) :: ps, p, by simp [pieces, hd, hps], by simp [pieces, hd, hsnoc]⟩

/-- The first piece ends before the first separator. -/
theorem head?_pieces (sep : Char) (cs : List Char) :
    (pieces sep cs).head? = some (cs.takeWhile (· != sep)) := by
  induction cs with
  | nil => rfl
  | cons c cs ih => by_cases hc : c = sep <;> simp [pieces, hc, ih]

/-- A text without separators starts the first piece if it starts the whole text. -/
theorem prefix_takeWhile_iff {ps cs : List Char} (h : sep ∉ ps) :
    ps <+: cs.takeWhile (· != sep) ↔ ps <+: cs := by
  constructor
  · intro hps
    exact hps.trans (List.takeWhile_prefix _)
  · rintro ⟨rest, rfl⟩
    have hall : ∀ c ∈ ps, (c != sep) = true := fun c hc => by
      rw [bne_iff_ne]
      rintro rfl
      exact h hc
    rw [List.takeWhile_append_of_pos hall]
    exact List.prefix_append _ _

/-- What stands behind the first separator; nothing if there is none. -/
def behind (sep : Char) (cs : List Char) : List Char := (cs.dropWhile (· != sep)).drop 1

@[simp] theorem behind_cons_self (sep : Char) (cs : List Char) : behind sep (sep :: cs) = cs := by
  simp [behind]

theorem behind_cons_of_ne {c : Char} (hc : c ≠ sep) (cs : List Char) :
    behind sep (c :: cs) = behind sep cs := by
  simp [behind, hc]

theorem behind_append {cs : List Char} (h : sep ∉ cs) (ds : List Char) :
    behind sep (cs ++ sep :: ds) = ds := by
  induction cs with
  | nil => exact behind_cons_self sep ds
  | cons c cs ih =>
    rw [List.mem_cons, not_or] at h
    rw [List.cons_append, behind_cons_of_ne (Ne.symm h.1), ih h.2]

/-- The pieces but for the first one make up what stands behind the first separator. -/
theorem behind_eq (sep : Char) (cs : List Char) :
    behind sep cs = [sep].intercalate (pieces sep cs).tail := by
  induction cs with
  | nil => rfl
  | cons c cs ih =>
    by_cases hc : c = sep
    · simp [pieces, hc, pieces_eq_splitOn, List.intercalate_splitOn]
    · simp [pieces, hc, behind_cons_of_ne hc, ih]

theorem pieces_map {f : Char → Char} (hf : ∀ c, f c = sep ↔ c = sep) (cs : List Char) :
    pieces sep (cs.map f) = (pieces sep cs).map (List.map f) := by
  induction cs with
  | nil => rfl
  | cons c cs ih =>
    by_cases hc : c = sep
    · simp [pieces, hf, hc, ih]
    · simp only [List.map_cons, pieces, hf, hc, if_false, ih]
      cases pieces sep cs <;> rfl

end

/-! ### Stripping -/

section

variable {p : Char → Bool}

theorem strip_cons {c : Char} (hc : p c = true) (cs : List Char) :
    strip p (c :: cs) = strip p cs := by
  rw [strip, List.dropWhile_cons_of_pos hc, strip]

theorem strip_snoc {c : Char} (hc : p c = true) (cs : List Char) :
    strip p (cs ++ [c]) = strip p cs := by
  unfold strip
  by_cases h : cs.dropWhile p = []
  · simp [List.dropWhile_append, h, hc]
  · simp [List.dropWhile_append, h, hc]

/-- What is stripped from a text stood at its two ends. -/
theorem exists_strip (p : Char → Bool) (cs : List Char) :
    ∃ front back, cs = front ++ strip p cs ++ back ∧ (∀ c ∈ front, p c) ∧ ∀ c ∈ back, p c := by
  refine ⟨cs.takeWhile p, ((cs.dropWhile p).reverse.takeWhile p).reverse, ?_, ?_, ?_⟩
  · rw [strip, List.append_assoc, ← List.reverse_append, List.takeWhile_append_dropWhile,
      List.reverse_reverse, List.takeWhile_append_dropWhile]
  · exact List.all_eq_true.1 List.all_takeWhile
  · intro c hc
    exact List.all_eq_true.1 List.all_takeWhile c (List.mem_reverse.1 hc)

theorem strip_append {front cs back : List Char} (hf : ∀ c ∈ front, p c) (hb : ∀ c ∈ back, p c) :
    strip p (front ++ cs ++ back) = strip p cs := by
  have hback : strip p (cs ++ back) = strip p cs := by
    induction back using List.reverseRecOn with
    | nil => rw [List.append_nil]
    | append_singleton back c ih =>
      rw [← List.append_assoc, strip_snoc (hb c (by simp)), ih fun d hd => hb d (by simp [hd])]
  rw [List.append_assoc]
  induction front with
  | nil => exact hback
  | cons c front ih =>
    rw [List.cons_append, strip_cons (hf c List.mem_cons_self), ih fun d hd => hf d (by simp [hd])]

theorem strip_map {f : Char → Char} (hf : ∀ c, p (f c) = p c) (cs : List Char) :
    strip p (cs.map f) = (strip p cs).map f := by
  have hp : p ∘ f = p := funext hf
  simp only [strip, List.dropWhile_map, hp, ← List.map_reverse]

end

/-! ### Spaces around pieces -/

theorem isSpace_space : isSpace ' ' = true := rfl

/-- The pieces between the commas, without the spaces around them. -/
def strippedPieces (cs : List Char) : List (List Char) := (pieces ',' cs).map (strip isSpace)

theorem fields_eq (args : String) :
    fields args = (strippedPieces args.toList).map String.ofList := by
  simp [fields, strippedPieces]

theorem tail_eq (args : String) :
    tail args = String.ofList (strip isSpace (behind ',' args.toList)) := rfl

theorem strippedPieces_append (cs ds : List Char) :
    strippedPieces (cs ++ ',' :: ds) = strippedPieces cs ++ strippedPieces ds := by
  simp only [strippedPieces, pieces_append, List.map_append]

theorem strippedPieces_cons_space (cs : List Char) :
    strippedPieces (' ' :: cs) = strippedPieces cs := by
  simp only [strippedPieces, pieces]
  cases pieces ',' cs with
  | nil => rfl
  | cons p ps => exact congrArg (· :: ps.map (strip isSpace)) (strip_cons isSpace_space p)

theorem strippedPieces_snoc_space (cs : List Char) :
    strippedPieces (cs ++ [' ']) = strippedPieces cs := by
  obtain ⟨ps, p, hps, hsnoc⟩ := pieces_snoc (show ' ' ≠ ',' by decide) cs
  simp only [strippedPieces, hps, hsnoc, List.map_append, List.map_cons, List.map_nil,
    strip_snoc isSpace_space]

/-- A space at the end belongs to what stands behind the first comma, if there is a comma. -/
theorem strip_behind_snoc_space (cs : List Char) :
    strip isSpace (behind ',' (cs ++ [' '])) = strip isSpace (behind ',' cs) := by
  induction cs with
  | nil => rfl
  | cons c cs ih =>
    by_cases hc : c = ','
    · subst hc
      rw [List.cons_append, behind_cons_self, behind_cons_self, strip_snoc isSpace_space]
    · rw [List.cons_append, behind_cons_of_ne hc, behind_cons_of_ne hc, ih]

/-! ### Letters -/

/-- Lower case changes capital letters only, and makes none of the characters before them. -/
theorem toLower_eq_iff {c d : Char} (hd : d < 'A') : c.toLower = d ↔ c = d := by
  unfold Char.toLower
  split
  · rename_i hc
    have hlow : 65 ≤ c.val.toNat := hc.1
    have hhigh : c.val.toNat ≤ 90 := hc.2
    have hsum : (c.val + ('a'.val - 'A'.val)).toNat = c.val.toNat + 32 := by
      rw [UInt32.toNat_add]
      exact Nat.mod_eq_of_lt (Nat.lt_of_le_of_lt (Nat.add_le_add_right hhigh 32) (by decide))
    constructor
    · rintro rfl
      have hlt : (c.val + ('a'.val - 'A'.val)).toNat < 65 := hd
      omega
    · rintro rfl
      exact absurd hlow (Nat.not_le.2 hd)
  · rfl

/-- A text in lower case has the fields in lower case. -/
theorem fields_lower (args : String) : fields (lower args) = (fields args).map lower := by
  have hcomma : ∀ c : Char, c.toLower = ',' ↔ c = ',' := fun c => toLower_eq_iff (by decide)
  have hspace : ∀ c : Char, isSpace c.toLower = isSpace c := fun c => by
    rw [Bool.eq_iff_iff, isSpace, isSpace, beq_iff_eq, beq_iff_eq]
    exact toLower_eq_iff (by decide)
  simp only [fields, lower, String.toList_ofList, pieces_map hcomma, List.map_map,
    Function.comp_def, strip_map hspace]

end ShaderFilter.Text
