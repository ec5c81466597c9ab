import ShaderFilter.Loader
import ShaderFilter.Proofs.Text.Fields
import Mathlib.Data.List.Forall2

/-!
# Arguments and their fields

Arguments spell the fields of a directive: the fields in their order, each with any number of spaces
on either side, and commas between them (`Spells`). A field has no comma itself and no space at an
end (`IsField`). Reading the fields is the inverse of spelling them (`fields_eq_iff`), so arguments
spell one list of fields, and this is the one that is read.

A setting is read twice, as fields and as the text behind the first comma. What is stripped from
this text are spaces, and no space at an end belongs to a field. So the fields of the text are the
fields of the setting but for the first one (`fields_tail`).
-/

namespace ShaderFilter.Text

/-- A text has no space at either end. -/
structure Trimmed (s : String) : Prop where
  /-- It does not start with a space. -/
  start : ∀ c ∈ s.toList.head?, c ≠ ' '
  /-- It does not end with a space. -/
  stop : ∀ c ∈ s.toList.getLast?, c ≠ ' '

/-- A text can be a field. -/
structure IsField (s : String) : Prop extends Trimmed s where
  /-- It has no comma. -/
  comma : ',' ∉ s.toList

/-- A number of spaces. -/
def spaces (n : Nat) : String := String.ofList (List.replicate n ' ')

/-- A text is a field with some spaces on either side of it. -/
inductive Spaced (field : String) : String → Prop where
  /-- Any number of spaces may stand on a side. -/
  | intro (m n : Nat) : Spaced field (spaces m ++ field ++ spaces n)

/-- Arguments spell some fields. -/
inductive Spells : List String → String → Prop where
  /-- The fields, with spaces around them and commas between them. -/
  | intro {fs texts : List String} : fs ≠ [] → (∀ f ∈ fs, IsField f) →
      List.Forall₂ Spaced fs texts → Spells fs (",".intercalate texts)

/-! ### Stripping -/

/-- A stripped text has none of the characters at its ends that are stripped. -/
theorem ends_strip (p : Char → Bool) (cs : List Char) :
    (∀ c ∈ (strip p cs).head?, p c = false) ∧ ∀ c ∈ (strip p cs).getLast?, p c = false := by
  have hdrop (ds : List Char) : ∀ c ∈ (ds.dropWhile p).head?, p c = false := by
    intro c hc
    have h := List.head?_dropWhile_not p ds
    rwa [Option.mem_def.1 hc] at h
  constructor
  · intro c hc
    -- What is left starts as it did before its end was stripped.
    have hprefix : strip p cs <+: cs.dropWhile p := by
      rw [strip, ← List.reverse_suffix, List.reverse_reverse]
      exact List.dropWhile_suffix p
    obtain ⟨ds, hds⟩ := List.head?_eq_some_iff.1 hc
    obtain ⟨rest, hrest⟩ := hprefix
    refine hdrop cs c ?_
    rw [← hrest, hds]
    rfl
  · intro c hc
    rw [strip, List.getLast?_reverse] at hc
    exact hdrop _ c hc

theorem trimmed_strip (cs : List Char) : Trimmed (String.ofList (strip isSpace cs)) := by
  have hne {c : Char} (h : isSpace c = false) : c ≠ ' ' := by simpa [isSpace] using h
  obtain ⟨hstart, hstop⟩ := ends_strip isSpace cs
  constructor
  · rw [String.toList_ofList]
    exact fun c hc => hne (hstart c hc)
  · rw [String.toList_ofList]
    exact fun c hc => hne (hstop c hc)

theorem Trimmed.strip_toList {s : String} (h : Trimmed s) : strip isSpace s.toList = s.toList :=
  strip_eq_self (fun c hc => by simpa [isSpace] using h.start c hc)
    fun c hc => by simpa [isSpace] using h.stop c hc

/-- Spaces at the ends of a text belong to none of its fields. -/
theorem strippedPieces_strip (cs : List Char) :
    strippedPieces (strip isSpace cs) = strippedPieces cs := by
  obtain ⟨front, back, hcs, hfront, hback⟩ := exists_strip isSpace cs
  generalize strip isSpace cs = ds at hcs
  have hspace {c : Char} (h : isSpace c) : c = ' ' := by simpa [isSpace] using h
  have hleft : strippedPieces (front ++ ds) = strippedPieces ds := by
    clear hcs
    induction front with
    | nil => rfl
    | cons c front ih =>
      rw [List.cons_append, hspace (hfront c List.mem_cons_self), strippedPieces_cons_space,
        ih fun d hd => hfront d (List.mem_cons_of_mem c hd)]
  have hright : strippedPieces (front ++ ds ++ back) = strippedPieces (front ++ ds) := by
    clear hcs
    induction back using List.reverseRecOn with
    | nil => rw [List.append_nil]
    | append_singleton back c ih =>
      rw [← List.append_assoc, hspace (hback c (by simp)), strippedPieces_snoc_space,
        ih fun d hd => hback d (by simp [hd])]
  rw [hcs, hright, hleft]

/-! ### Fields -/

theorem isField_of_mem_fields {args f : String} (h : f ∈ fields args) : IsField f := by
  obtain ⟨piece, hpiece, rfl⟩ := List.mem_map.1 h
  refine ⟨trimmed_strip piece, ?_⟩
  rw [String.toList_ofList]
  intro hmem
  obtain ⟨front, back, hcs, -, -⟩ := exists_strip isSpace piece
  refine not_mem_of_mem_pieces hpiece ?_
  rw [hcs]
  exact List.mem_append_left _ (List.mem_append_right _ hmem)

theorem length_fields (args : String) : (fields args).length = args.toList.count ',' + 1 := by
  rw [fields, List.length_map, length_pieces]

theorem fields_ne_nil (args : String) : fields args ≠ [] := by
  rw [← List.length_pos_iff, length_fields]
  exact Nat.succ_pos _

/-- Arguments without a comma are one field. -/
theorem strippedPieces_of_not_mem {cs : List Char} (h : ',' ∉ cs) :
    strippedPieces cs = [strip isSpace cs] := by
  rw [strippedPieces, pieces_eq_splitOn, List.splitOn_eq_singleton h, List.map_singleton]

/-! ### Spelling -/

theorem toList_spaces (n : Nat) : (spaces n).toList = List.replicate n ' ' := String.toList_ofList

theorem Spaced.strip {f s : String} (h : Spaced f s) (hf : Trimmed f) :
    String.ofList (strip isSpace s.toList) = f := by
  have hspace (n : Nat) : ∀ c ∈ List.replicate n ' ', isSpace c := fun c hc =>
    (List.eq_of_mem_replicate hc).symm ▸ isSpace_space
  obtain ⟨m, n⟩ := h
  rw [String.toList_append, String.toList_append, toList_spaces, toList_spaces,
    strip_append (hspace m) (hspace n), hf.strip_toList, String.ofList_toList]

theorem Spaced.comma {f s : String} (h : Spaced f s) (hf : ',' ∉ f.toList) : ',' ∉ s.toList := by
  have hspace (n : Nat) : ',' ∉ List.replicate n ' ' := fun hc =>
    absurd (List.eq_of_mem_replicate hc) (by decide)
  obtain ⟨m, n⟩ := h
  simp [toList_spaces, hf, hspace]

/-- A piece is its field with spaces around it. -/
theorem spaced_piece (piece : List Char) :
    Spaced (String.ofList (strip isSpace piece)) (String.ofList piece) := by
  have hspaces {cs : List Char} (h : ∀ c ∈ cs, isSpace c) :
      String.ofList cs = spaces cs.length := by
    rw [spaces, ← List.eq_replicate_of_mem fun c hc => by simpa [isSpace] using h c hc]
  obtain ⟨front, back, hcs, hfront, hback⟩ := exists_strip isSpace piece
  have h : Spaced (String.ofList (strip isSpace piece)) (spaces front.length ++
      String.ofList (strip isSpace piece) ++ spaces back.length) := .intro _ _
  rwa [← hspaces hfront, ← hspaces hback, ← String.ofList_append, ← String.ofList_append,
    ← hcs] at h

/-- Texts that are fields with spaces around them have no commas; stripped they are the fields. -/
theorem strip_spaced {fs texts : List String} (h : List.Forall₂ Spaced fs texts)
    (hf : ∀ f ∈ fs, IsField f) :
    (∀ s ∈ texts, ',' ∉ s.toList) ∧
      texts.map (fun s => String.ofList (strip isSpace s.toList)) = fs := by
  induction h with
  | nil => exact ⟨nofun, rfl⟩
  | cons hs _ ih =>
    obtain ⟨hfield, hfs⟩ := List.forall_mem_cons.1 hf
    obtain ⟨hcomma, hmap⟩ := ih hfs
    constructor
    · exact List.forall_mem_cons.2 ⟨hs.comma hfield.comma, hcomma⟩
    · rw [List.map_cons, hs.strip hfield.toTrimmed, hmap]

/-- What arguments spell is read. -/
theorem Spells.fields_eq {fs : List String} {args : String} (h : Spells fs args) :
    fields args = fs := by
  cases h with
  | @intro texts hne hfield htexts =>
    obtain ⟨hcomma, hstrip⟩ := strip_spaced htexts hfield
    have hsplit : pieces ',' (",".intercalate texts).toList = texts.map String.toList := by
      rw [String.toList_intercalate, pieces_eq_splitOn]
      refine List.splitOn_intercalate ',' ?_ ?_
      · intro cs hcs
        obtain ⟨s, hs, rfl⟩ := List.mem_map.1 hcs
        exact hcomma s hs
      · intro hnil
        obtain rfl := List.map_eq_nil_iff.1 hnil
        exact hne hstrip.symm
    rw [fields, hsplit, List.map_map]
    exact hstrip

/-- **Reading fields is the inverse of spelling them.** -/
theorem fields_eq_iff {fs : List String} {args : String} : fields args = fs ↔ Spells fs args := by
  constructor
  · rintro rfl
    have hspaced : List.Forall₂ Spaced (fields args)
        ((pieces ',' args.toList).map String.ofList) := by
      rw [fields, List.forall₂_map_left_iff, List.forall₂_map_right_iff, List.forall₂_same]
      exact fun piece _ => spaced_piece piece
    have hjoin : ",".intercalate ((pieces ',' args.toList).map String.ofList) = args := by
      rw [← String.toList_inj, String.toList_intercalate, List.map_map]
      simp [pieces_eq_splitOn, Function.comp_def, List.intercalate_splitOn]
    have h := Spells.intro (fields_ne_nil args) (fun f => isField_of_mem_fields) hspaced
    rwa [hjoin] at h
  · exact Spells.fields_eq

/-! ### Settings -/

/-- The fields of the text behind the first comma are the fields behind the first one. -/
theorem fields_tail {args : String} (h : ',' ∈ args.toList) :
    fields (tail args) = (fields args).tail := by
  obtain ⟨front, back, hargs, hfront⟩ := List.eq_append_cons_of_mem h
  rw [fields_eq, fields_eq, tail_eq, String.toList_ofList, strippedPieces_strip, hargs,
    behind_append hfront, strippedPieces_append, strippedPieces_of_not_mem hfront]
  rfl

theorem tail_of_not_mem {args : String} (h : ',' ∉ args.toList) : tail args = "" := by
  have hbehind : behind ',' args.toList = [] := by
    rw [behind_eq, pieces_eq_splitOn, List.splitOn_eq_singleton h]
    rfl
  rw [tail_eq, hbehind]
  rfl

/-- **Fields are the inverse of their spellings, and a setting is read in one way.** Arguments have
one field more than commas, each without commas and without spaces at its ends. They have those
fields that they spell: fields with any number of spaces around each of them and commas between them
are read as they were.

A setting is made from its fields and the text behind its first comma. This text has no space at
its ends; its fields are those of the setting but for the first one. Where there is no comma, there
is one field and no such text. -/
theorem fields_and_tail_agree (args : String) :
    (fields args).length = args.toList.count ',' + 1 ∧
    (∀ f ∈ fields args, IsField f) ∧
    (∀ fs, fields args = fs ↔ Spells fs args) ∧
    Loader.obey .setting args = Loader.arrange (fields args) (tail args) ∧
    Trimmed (tail args) ∧
    (',' ∈ args.toList → fields (tail args) = (fields args).tail) ∧
    (',' ∉ args.toList → (fields args).length = 1 ∧ tail args = "") := by
  refine ⟨length_fields args, fun f => isField_of_mem_fields, fun fs => fields_eq_iff, rfl,
    trimmed_strip _, fields_tail, fun h => ⟨?_, tail_of_not_mem h⟩⟩
  rw [length_fields, List.count_eq_zero_of_not_mem h]

/-- The arguments of a title with commas in it, an empty field and a tab that belongs to a field. -/
theorem fields_and_tail_agree_title :
    Spells ["title", "a", "", "\tb"] "  title ,a  , ,\tb " ∧
    fields "  title ,a  , ,\tb " = ["title", "a", "", "\tb"] ∧
    tail "  title ,a  , ,\tb " = "a  , ,\tb" ∧ fields "a  , ,\tb" = ["a", "", "\tb"] ∧
    (fields " sepa").length = 1 ∧ tail " sepa" = "" := by
  have hfield : ∀ f ∈ ["title", "a", "", "\tb"], IsField f := by
    intro f hf
    have hends : ∀ f ∈ ["title", "a", "", "\tb"], f.toList.head?.all (· ≠ ' ') ∧
        f.toList.getLast?.all (· ≠ ' ') ∧ ',' ∉ f.toList := by decide
    simp only [Option.all_eq_true, decide_eq_true_eq] at hends
    obtain ⟨hstart, hstop, hcomma⟩ := hends f hf
    exact ⟨⟨hstart, hstop⟩, hcomma⟩
  have hspells := Spells.intro (List.cons_ne_nil _ _) hfield
    (.cons (.intro 2 1) (.cons (.intro 0 2) (.cons (.intro 1 0) (.cons (.intro 0 1) .nil))))
  have hjoin : ",".intercalate [spaces 2 ++ "title" ++ spaces 1, spaces 0 ++ "a" ++ spaces 2,
      spaces 1 ++ "" ++ spaces 0, spaces 0 ++ "\tb" ++ spaces 1] = "  title ,a  , ,\tb " := by
    decide +kernel
  rw [hjoin] at hspells
  obtain ⟨-, -, hread, -, -, hrest, -⟩ := fields_and_tail_agree "  title ,a  , ,\tb "
  obtain ⟨-, -, -, -, -, -, hnone⟩ := fields_and_tail_agree " sepa"
  have hfields := (hread _).2 hspells
  have htail : tail "  title ,a  , ,\tb " = "a  , ,\tb" := by decide +kernel
  have hagree := hrest (by decide)
  rw [htail, hfields] at hagree
  exact ⟨hspells, hfields, htail, hagree, hnone (by decide)⟩

end ShaderFilter.Text
