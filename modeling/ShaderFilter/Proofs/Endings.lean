import ShaderFilter.Script
import ShaderFilter.Proofs.Text.Lines
import Mathlib.Data.List.Chain

/-!
# Line endings

A text can be put together from lines, each with what ends it. Not every choice of endings can
be told from the text again: a carriage return in front of an empty line that a line feed ends
would be read as one terminator, and a last line that is empty needs a terminator to be seen.
`Joinable` rules these two out, and then reading lines is the inverse of joining them.

Reading is stated here as the loop that it is. A round cuts the first line off a text, with its
terminator (`cut?`); the rounds end where nothing is left (`Scans`). A joined text is scanned
back into its lines (`Joinable.scans`), every text is a joined one (`Lined.exists_joinable`), and
scanning has one outcome; so the lines of a text and their endings are determined by it.
-/

namespace ShaderFilter

namespace Text

/-- A line with what ends it. -/
structure EndedLine where
  /-- The characters of the line. -/
  line : List Char
  /-- The terminator; none where the end of the text ends the line. -/
  ending : Option Terminator
  deriving DecidableEq

namespace EndedLine

/-- The line without its terminator. -/
def text (e : EndedLine) : String := String.ofList e.line

/-- The characters of the line and of its terminator. -/
def chars (e : EndedLine) : List Char := e.line ++ e.ending.elim [] Terminator.chars

/-- Line `f` may come after line `e`: a terminator ends `e`, and it is not a carriage return that
would make a pair with the line feed that `f` consists of. -/
def Precedes (e f : EndedLine) : Prop :=
  e.ending ≠ none ∧ (e.ending = some .carriage → f ≠ ⟨[], some .feed⟩)

instance (e f : EndedLine) : Decidable (e.Precedes f) :=
  inferInstanceAs (Decidable (_ ∧ _))

end EndedLine

/-- The text that lines make with their terminators. -/
def joined (es : List EndedLine) : List Char := es.flatMap EndedLine.chars

/-- The text that lines make with their terminators. -/
def join (es : List EndedLine) : String := String.ofList (joined es)

/-- The lines and their endings can be told from the text that they make. -/
structure Joinable (es : List EndedLine) : Prop where
  /-- No character of a line ends a line. -/
  plain : ∀ e ∈ es, Plain e.line
  /-- A line that the end of the text ends is not empty. -/
  last : ∀ e ∈ es, e.ending = none → e.line ≠ []
  /-- Only the last line may lack a terminator, and no two terminators make a pair. -/
  chain : es.IsChain EndedLine.Precedes

theorem joinable_iff {es : List EndedLine} :
    Joinable es ↔ (∀ e ∈ es, Plain e.line) ∧ (∀ e ∈ es, e.ending = none → e.line ≠ []) ∧
      es.IsChain EndedLine.Precedes :=
  ⟨fun h => ⟨h.plain, h.last, h.chain⟩, fun h => ⟨h.1, h.2.1, h.2.2⟩⟩

instance (es : List EndedLine) : Decidable (Joinable es) := decidable_of_iff _ joinable_iff.symm

namespace Joinable

theorem nil : Joinable [] := ⟨List.forall_mem_nil _, List.forall_mem_nil _, .nil⟩

theorem cons_iff {e : EndedLine} {es : List EndedLine} :
    Joinable (e :: es) ↔ Plain e.line ∧ (e.ending = none → e.line ≠ []) ∧
      (∀ f ∈ es.head?, e.Precedes f) ∧ Joinable es := by
  simp only [joinable_iff, List.forall_mem_cons, List.isChain_cons]
  tauto

theorem take {es : List EndedLine} (h : Joinable es) (k : Nat) : Joinable (es.take k) where
  plain e he := h.plain e (List.mem_of_mem_take he)
  last e he := h.last e (List.mem_of_mem_take he)
  chain := h.chain.take k

/-- A line without a terminator is the last one. -/
theorem eq_nil_of_ending {e : EndedLine} {es : List EndedLine} (h : Joinable (e :: es))
    (he : e.ending = none) : es = [] := by
  obtain ⟨-, -, hfirst, -⟩ := cons_iff.1 h
  cases es with
  | nil => rfl
  | cons f fs => exact absurd he (hfirst f rfl).1

/-- A joined text starts with a line feed only if its first line consists of it. -/
theorem head?_of_feed {es : List EndedLine} (h : Joinable es)
    (hfeed : (joined es).head? = some '\n') : es.head? = some ⟨[], some .feed⟩ := by
  cases es with
  | nil => cases hfeed
  | cons e es =>
    obtain ⟨hplain, hlast, -, -⟩ := cons_iff.1 h
    obtain ⟨l, ending⟩ := e
    cases l with
    | cons c l => exact absurd (Option.some.inj hfeed) (plain_cons.1 hplain).1.1
    | nil =>
      cases ending with
      | none => exact absurd rfl (hlast rfl)
      | some t =>
        cases t with
        | feed => rfl
        | pair => cases hfeed
        | carriage => cases hfeed

/-- A carriage return that ends a line has no line feed after it. -/
theorem head?_of_carriage {e : EndedLine} {es : List EndedLine} (h : Joinable (e :: es))
    (he : e.ending = some .carriage) : (joined es).head? ≠ some '\n' := by
  obtain ⟨-, -, hfirst, hes⟩ := cons_iff.1 h
  intro hfeed
  exact (hfirst _ (hes.head?_of_feed hfeed)).2 he rfl

/-- The lines that a text is put together from are its lines. -/
theorem lined {es : List EndedLine} (h : Joinable es) : Lined (joined es) (es.map (·.line)) := by
  induction es with
  | nil => exact .nil
  | cons e es ih =>
    obtain ⟨hplain, hlast, -, hes⟩ := cons_iff.1 h
    have hcarriage := h.head?_of_carriage
    have hnil := h.eq_nil_of_ending
    obtain ⟨l, ending⟩ := e
    cases ending with
    | none =>
      cases hnil rfl
      simpa [joined, EndedLine.chars] using Lined.last (hlast rfl) hplain
    | some t =>
      have := Lined.line t hplain (fun ht => hcarriage (congrArg some ht)) (ih hes)
      simpa [joined, EndedLine.chars] using this

end Joinable

/-- Every text is put together from its lines. -/
theorem Lined.exists_joinable {cs : List Char} {ls : List (List Char)} (h : Lined cs ls) :
    ∃ es, Joinable es ∧ joined es = cs ∧ es.map (·.line) = ls := by
  induction h with
  | nil => exact ⟨[], .nil, rfl, rfl⟩
  | @last l hne hl =>
    refine ⟨[⟨l, none⟩], Joinable.cons_iff.2 ⟨hl, fun _ => hne, ?_, .nil⟩, ?_, rfl⟩
    · intro f hf
      cases hf
    · simp [joined, EndedLine.chars]
  | @line l cs ls t hl ht _ ih =>
    obtain ⟨es, hes, rfl, rfl⟩ := ih
    refine ⟨⟨l, some t⟩ :: es, Joinable.cons_iff.2 ⟨hl, nofun, ?_, hes⟩, ?_, rfl⟩
    · intro f hf
      refine ⟨nofun, ?_⟩
      rintro hc rfl
      obtain ⟨fs, rfl⟩ := List.head?_eq_some_iff.1 hf
      exact ht (Option.some.inj hc) rfl
    · simp [joined, EndedLine.chars]

/-! ### Reading as a loop -/

/-- A character does not end a line. -/
def inLine (c : Char) : Bool := c != '\n' && c != '\r'

/-- A round of the loop that reads lines: the first line of a text, with its terminator, and the
rest of the text; none if the text is empty. -/
def cut? (cs : List Char) : Option (EndedLine × List Char) :=
  if cs = [] then none
  else
    let line := cs.takeWhile inLine
    match cs.dropWhile inLine with
    | [] => some (⟨line, none⟩, [])
    | '\r' :: '\n' :: rest => some (⟨line, some .pair⟩, rest)
    | '\r' :: rest => some (⟨line, some .carriage⟩, rest)
    | _ :: rest => some (⟨line, some .feed⟩, rest)

/-- The loop ends on a text, and has cut these lines off by then. -/
inductive Scans : List Char → List EndedLine → Prop where
  /-- Nothing is left. -/
  | done {cs : List Char} : cut? cs = none → Scans cs []
  /-- A round cuts a line off, and the loop goes on with the rest. -/
  | round {cs rest : List Char} {e : EndedLine} {es : List EndedLine} :
      cut? cs = some (e, rest) → Scans rest es → Scans cs (e :: es)

/-- The text of the first `k` lines with their terminators. -/
def firstLineList : Nat → List Char → List Char
  | 0, _ => []
  | k + 1, cs =>
    match cut? cs with
    | some (e, rest) => e.chars ++ firstLineList k rest
    | none => []

/-- The text of the first `k` lines with their terminators. -/
def firstLines (k : Nat) (text : String) : String := String.ofList (firstLineList k text.toList)

theorem inLine_of_plain {l : List Char} (h : Plain l) : ∀ c ∈ l, inLine c = true := by
  intro c hc
  simpa [inLine] using h c hc

/-- A line reaches up to the first character that ends it. -/
theorem takeWhile_line {l cs : List Char} (hl : Plain l) (hcs : ∀ c ∈ cs.head?, inLine c = false) :
    (l ++ cs).takeWhile inLine = l := by
  rw [List.takeWhile_append_of_pos (inLine_of_plain hl)]
  cases cs with
  | nil => simp
  | cons c cs => simp [hcs c rfl]

theorem dropWhile_line {l cs : List Char} (hl : Plain l) (hcs : ∀ c ∈ cs.head?, inLine c = false) :
    (l ++ cs).dropWhile inLine = cs := by
  rw [List.dropWhile_append_of_pos (inLine_of_plain hl)]
  cases cs with
  | nil => rfl
  | cons c cs => simp [hcs c rfl]

/-- A round cuts off what a line and its terminator have put in front of a text. -/
theorem cut?_joined {e : EndedLine} {es : List EndedLine} (h : Joinable (e :: es)) :
    cut? (joined (e :: es)) = some (e, joined es) := by
  obtain ⟨hplain, hlast, -, -⟩ := Joinable.cons_iff.1 h
  have hcarriage := h.head?_of_carriage
  have hnil := h.eq_nil_of_ending
  obtain ⟨l, ending⟩ := e
  cases ending with
  | none =>
    cases hnil rfl
    have htake : (l ++ []).takeWhile inLine = l := takeWhile_line hplain nofun
    have hdrop : (l ++ []).dropWhile inLine = [] := dropWhile_line hplain nofun
    have hne : l ++ [] ≠ [] := by simpa using hlast rfl
    simp only [joined, EndedLine.chars, cut?, List.flatMap_cons, List.flatMap_nil, Option.elim_none]
    rw [List.append_nil, if_neg hne, htake, hdrop]
  | some t =>
    have hends : ∀ c ∈ (t.chars ++ joined es).head?, inLine c = false := by
      cases t <;> simp [Terminator.chars, inLine]
    have htake := takeWhile_line hplain hends
    have hdrop := dropWhile_line hplain hends
    have hne : l ++ (t.chars ++ joined es) ≠ [] := by cases t <;> simp [Terminator.chars]
    have hcs : joined (⟨l, some t⟩ :: es) = l ++ (t.chars ++ joined es) := List.append_assoc _ _ _
    rw [hcs, cut?, if_neg hne]
    simp only [htake, hdrop]
    cases t with
    | feed => rfl
    | pair => rfl
    | carriage =>
      cases hrest : joined es with
      | nil => rfl
      | cons c cs =>
        have hc : c ≠ '\n' := by simpa [hrest] using hcarriage rfl
        simp [Terminator.chars, hc]

/-- The loop takes a joined text apart again. -/
theorem Joinable.scans {es : List EndedLine} (h : Joinable es) : Scans (joined es) es := by
  induction es with
  | nil => exact .done rfl
  | cons e es ih => exact .round (cut?_joined h) (ih (cons_iff.1 h).2.2.2)

/-- The loop has one outcome. -/
theorem Scans.unique {cs : List Char} {es fs : List EndedLine} (h : Scans cs es)
    (h' : Scans cs fs) : es = fs := by
  induction h generalizing fs with
  | done hnone =>
    cases h' with
    | done => rfl
    | round hsome => cases hnone.symm.trans hsome
  | round hsome _ ih =>
    cases h' with
    | done hnone => cases hnone.symm.trans hsome
    | round hsome' hrest =>
      cases hsome.symm.trans hsome'
      rw [ih hrest]

theorem lines_join {es : List EndedLine} (h : Joinable es) :
    lines (join es) = es.map EndedLine.text := by
  rw [lines, join, String.toList_ofList, ← lined_iff.1 h.lined, List.map_map]
  rfl

/-- Every text has lines and endings. -/
theorem exists_join (text : String) : ∃ es, Joinable es ∧ join es = text := by
  obtain ⟨es, hes, hjoined, -⟩ := (lined_lineList text.toList).exists_joinable
  exact ⟨es, hes, by rw [join, hjoined, String.ofList_toList]⟩

/-- **The loop ends with the lines and endings that make the text**, if they can be told from it. -/
theorem scans_iff {text : String} {es : List EndedLine} :
    Scans text.toList es ↔ Joinable es ∧ join es = text := by
  constructor
  · intro h
    obtain ⟨fs, hfs, rfl⟩ := exists_join text
    rw [join, String.toList_ofList] at h
    rw [h.unique hfs.scans]
    exact ⟨hfs, rfl⟩
  · rintro ⟨h, rfl⟩
    rw [join, String.toList_ofList]
    exact h.scans

/-! ### The first lines of a text -/

theorem firstLineList_joined {es : List EndedLine} (h : Joinable es) (k : Nat) :
    firstLineList k (joined es) = joined (es.take k) := by
  induction k generalizing es with
  | zero => rfl
  | succ k ih =>
    cases es with
    | nil => rfl
    | cons e es =>
      rw [firstLineList, cut?_joined h, List.take_succ_cons]
      exact congrArg _ (ih (Joinable.cons_iff.1 h).2.2.2)

/-- They are the first ones of the lines that the loop cuts off. -/
theorem firstLines_of_scans {text : String} {es : List EndedLine} (h : Scans text.toList es)
    (k : Nat) : firstLines k text = join (es.take k) := by
  obtain ⟨hes, rfl⟩ := scans_iff.1 h
  rw [firstLines, join, String.toList_ofList, firstLineList_joined hes, join]

theorem lines_firstLines (k : Nat) (text : String) :
    lines (firstLines k text) = (lines text).take k := by
  obtain ⟨es, hes, rfl⟩ := exists_join text
  rw [firstLines_of_scans (scans_iff.2 ⟨hes, rfl⟩), lines_join hes, lines_join (hes.take k),
    List.map_take]

end Text

namespace Script

open Text (EndedLine Joinable Scans Terminator join)

/-! ### Scripts -/

/-- **Reading lines is the inverse of joining them.** Lines that are joined with their terminators
are read again, whatever the terminators are, as long as no two of them make a pair and the
last line can be seen. Every text is joined from exactly one such list of lines with terminators,
and this list is what the loop that reads lines ends with. So the style of the line endings does
not matter: scripts with the same lines have the same definition, or are refused at the same
line for the same reason, and note the same in the log. -/
theorem lines_inverse_of_join :
    (∀ es, Joinable es → Text.lines (join es) = es.map EndedLine.text) ∧
    (∀ text, ∃ es, Scans text.toList es ∧ Text.lines text = es.map EndedLine.text ∧
      ∀ fs, Joinable fs ∧ join fs = text ↔ fs = es) ∧
    ∀ name es fs, Joinable es → Joinable fs → es.map (·.line) = fs.map (·.line) →
      parse name (join es) = parse name (join fs) := by
  refine ⟨fun es => Text.lines_join, fun text => ?_, fun name es fs hes hfs hlines => ?_⟩
  · obtain ⟨es, hes, rfl⟩ := Text.exists_join text
    have hscans : Scans (join es).toList es := Text.scans_iff.2 ⟨hes, rfl⟩
    refine ⟨es, hscans, Text.lines_join hes, fun fs => ?_⟩
    rw [← Text.scans_iff]
    constructor
    · exact fun h => h.unique hscans
    · rintro rfl
      exact hscans
  · have htext : es.map EndedLine.text = fs.map EndedLine.text := by
      have := congrArg (List.map String.ofList) hlines
      rwa [List.map_map, List.map_map] at this
    rw [parse, parse, Text.lines_join hes, Text.lines_join hfs, htext]

/-- Lines with all three terminators, and a carriage return in front of a pair. -/
def mixedEndings : List EndedLine :=
  [⟨"#texture t,1".toList, some .carriage⟩, ⟨[], some .pair⟩, ⟨[], some .feed⟩,
    ⟨[], some .carriage⟩, ⟨"#texture u,1".toList, none⟩]

/-- The same lines, each with a line feed. -/
def feedEndings : List EndedLine := mixedEndings.map fun e => ⟨e.line, some .feed⟩

/-- The binding that is taken is refused on line 5 in both styles. -/
theorem lines_inverse_of_join_mixed :
    join mixedEndings = "#texture t,1\r\r\n\n\r#texture u,1" ∧
    Text.lines (join mixedEndings) = ["#texture t,1", "", "", "", "#texture u,1"] ∧
    parse "f" (join mixedEndings) = parse "f" (join feedEndings) ∧
    (parse "f" (join feedEndings)).result =
      .error ⟨5, .duplicateBinding ⟨1, by decide, by decide⟩⟩ := by
  have hmixed : Joinable mixedEndings := by decide +kernel
  have hfeed : Joinable feedEndings := by decide +kernel
  exact ⟨by decide +kernel, lines_inverse_of_join.1 _ hmixed,
    lines_inverse_of_join.2.2 "f" _ _ hmixed hfeed (by decide +kernel), by decide +kernel⟩

end Script

end ShaderFilter
