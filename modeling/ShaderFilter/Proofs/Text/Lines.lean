import ShaderFilter.Text.Lines
import Mathlib.Data.List.Basic

/-!
# What the lines of a text are

A text is a sequence of lines, each with its terminator: a line feed, a carriage return, or a
carriage return with a line feed directly after it; the last line may have none, but is not
empty then. `Lined` states this without an algorithm, and `lined_iff` says that `lineList` finds
the one such sequence.

A compiler, to which only line feeds matter, counts the lines of the shader source in its own
way. Its lines are `feedLines`; `countLines` is their number, and they are again the lines that
a text is put together from by line feeds.
-/

namespace ShaderFilter.Text

/-- What ends a line. -/
inductive Terminator where
  /-- A line feed. -/
  | feed
  /-- A carriage return and a line feed. -/
  | pair
  /-- A carriage return alone. -/
  | carriage
  deriving DecidableEq

/-- The characters of a terminator. -/
def Terminator.chars : Terminator → List Char
  | .feed => ['\n']
  | .pair => ['\r', '\n']
  | .carriage => ['\r']

/-- No character of `l` ends a line. -/
def Plain (l : List Char) : Prop := ∀ c ∈ l, c ≠ '\n' ∧ c ≠ '\r'

instance (l : List Char) : Decidable (Plain l) :=
  decidable_of_iff (l.all fun c => c != '\n' && c != '\r') (by simp [Plain])

/-- `ls` are the lines of the text `cs`. -/
inductive Lined : List Char → List (List Char) → Prop where
  /-- The empty text has no lines. -/
  | nil : Lined [] []
  /-- The end of the text ends a last line that is not empty. -/
  | last {l : List Char} : l ≠ [] → Plain l → Lined l [l]
  /-- A line with its terminator. A carriage return before a line feed is not one alone. -/
  | line {l cs : List Char} {ls : List (List Char)} (t : Terminator) : Plain l →
      (t = .carriage → cs.head? ≠ some '\n') → Lined cs ls → Lined (l ++ (t.chars ++ cs)) (l :: ls)

theorem plain_nil : Plain [] := List.forall_mem_nil _

theorem plain_cons {c : Char} {l : List Char} : Plain (c :: l) ↔ (c ≠ '\n' ∧ c ≠ '\r') ∧ Plain l :=
  List.forall_mem_cons

/-! ### The lines of a script -/

/-- A character in front of a text belongs to the first line. -/
theorem Lined.extendFirst {c : Char} {cs : List Char} {ls : List (List Char)}
    (hc : c ≠ '\n' ∧ c ≠ '\r') (h : Lined cs ls) : Lined (c :: cs) (extendFirst c ls) := by
  cases h with
  | nil => exact .last (by simp) (plain_cons.2 ⟨hc, plain_nil⟩)
  | last _ hl => exact .last (by simp) (plain_cons.2 ⟨hc, hl⟩)
  | line t hl ht h => exact .line (l := c :: _) t (plain_cons.2 ⟨hc, hl⟩) ht h

theorem lined_lineList (cs : List Char) : Lined cs (lineList cs) := by
  fun_induction lineList cs with
  | case1 => exact .nil
  | case2 cs ih => exact .line (l := []) .pair plain_nil (by simp) ih
  | case3 c cs hne hc ih =>
    rcases hc with rfl | rfl
    · exact .line (l := []) .feed plain_nil (by simp) ih
    · refine .line (l := []) .carriage plain_nil (fun _ hn => ?_) ih
      obtain ⟨ds, rfl⟩ := List.head?_eq_some_iff.1 hn
      exact hne ds rfl rfl
  | case4 c cs hne hc ih => exact ih.extendFirst (not_or.1 hc)

theorem lineList_cons {c : Char} (hc : c ≠ '\n' ∧ c ≠ '\r') (cs : List Char) :
    lineList (c :: cs) = extendFirst c (lineList cs) := by
  rw [lineList, if_neg (not_or.2 hc)]
  exact fun _ h => absurd h hc.2

theorem lineList_of_plain {l : List Char} (hne : l ≠ []) (hl : Plain l) : lineList l = [l] := by
  induction l with
  | nil => exact absurd rfl hne
  | cons c l ih =>
    obtain ⟨hc, hl⟩ := plain_cons.1 hl
    rw [lineList_cons hc]
    cases l with
    | nil => rfl
    | cons d l => rw [ih (by simp) hl]; rfl

theorem lineList_terminated {l cs : List Char} {t : Terminator} (hl : Plain l)
    (ht : t = .carriage → cs.head? ≠ some '\n') :
    lineList (l ++ (t.chars ++ cs)) = l :: lineList cs := by
  induction l with
  | nil =>
    cases t with
    | feed => simp [Terminator.chars, lineList]
    | pair => simp [Terminator.chars, lineList]
    | carriage =>
      cases cs with
      | nil => simp [Terminator.chars, lineList]
      | cons c cs =>
        have hc : c ≠ '\n' := by simpa using ht rfl
        simp [Terminator.chars, lineList, hc]
  | cons c l ih =>
    obtain ⟨hc, hl⟩ := plain_cons.1 hl
    rw [List.cons_append, lineList_cons hc, ih hl]
    rfl

/-- **The lines of a text are what `lineList` finds, and nothing else.** -/
theorem lined_iff {cs : List Char} {ls : List (List Char)} : Lined cs ls ↔ ls = lineList cs := by
  constructor
  · intro h
    induction h with
    | nil => rfl
    | last hne hl => exact (lineList_of_plain hne hl).symm
    | line t hl ht _ ih => rw [lineList_terminated hl ht, ih]
  · rintro rfl
    exact lined_lineList cs

/-- The lines of a string are those that `lines` gives. -/
theorem lined_lines_iff {s : String} {ls : List (List Char)} :
    Lined s.toList ls ↔ ls = (lines s).map String.toList := by
  simp [lined_iff, lines]

theorem Lined.plain {cs : List Char} {ls : List (List Char)} (h : Lined cs ls) :
    ∀ l ∈ ls, Plain l := by
  induction h with
  | nil => exact List.forall_mem_nil _
  | last _ hl => exact List.forall_mem_singleton.2 hl
  | line _ hl _ _ ih => exact List.forall_mem_cons.2 ⟨hl, ih⟩

theorem plain_of_mem_lines {s l : String} (h : l ∈ lines s) : Plain l.toList :=
  (lined_lines_iff.2 rfl).plain _ (List.mem_map_of_mem h)

/-! ### The lines that a compiler counts -/

/-- The lines of a text in which a line feed ends a line, also one after a carriage return. -/
def feedLineList : List Char → List (List Char)
  | [] => []
  | '\r' :: '\n' :: cs => [] :: feedLineList cs
  | c :: cs => if c = '\n' then [] :: feedLineList cs else extendFirst c (feedLineList cs)

theorem feedLineList_cons {c : Char} (hc : c ≠ '\n' ∧ c ≠ '\r') (cs : List Char) :
    feedLineList (c :: cs) = extendFirst c (feedLineList cs) := by
  rw [feedLineList, if_neg hc.1]
  exact fun _ h => absurd h hc.2

theorem feedLineList_append {l : List Char} (hl : Plain l) (cs : List Char) :
    feedLineList (l ++ '\n' :: cs) = l :: feedLineList cs := by
  induction l with
  | nil => simp [feedLineList]
  | cons c l ih =>
    obtain ⟨hc, hl⟩ := plain_cons.1 hl
    rw [List.cons_append, feedLineList_cons hc, ih hl]
    rfl

/-- A text that is put together from lines by line feeds has these lines. -/
theorem feedLineList_flatMap {ls : List (List Char)} (h : ∀ l ∈ ls, Plain l) :
    feedLineList (ls.flatMap (· ++ ['\n'])) = ls := by
  induction ls with
  | nil => rfl
  | cons l ls ih =>
    obtain ⟨hl, hls⟩ := List.forall_mem_cons.1 h
    rw [List.flatMap_cons, List.append_assoc, List.singleton_append, feedLineList_append hl, ih hls]

theorem length_extendFirst (c : Char) {ls : List (List Char)} (h : ls ≠ []) :
    (extendFirst c ls).length = ls.length := by
  cases ls with
  | nil => exact absurd rfl h
  | cons l ls => rfl

theorem feedLineList_ne_nil {cs : List Char} (h : cs ≠ []) : feedLineList cs ≠ [] := by
  fun_cases feedLineList cs with
  | case1 => exact absurd rfl h
  | case2 | case3 => simp
  | case4 c cs => cases feedLineList cs <;> simp [extendFirst]

theorem length_feedLineList (cs : List Char) :
    (feedLineList cs).length = cs.count '\n' + match cs.getLast? with
      | none => 0
      | some c => if c = '\n' then 0 else 1 := by
  fun_induction feedLineList cs with
  | case1 => rfl
  | case2 cs ih | case3 cs ih =>
    cases cs with
    | nil => simp [feedLineList]
    | cons d ds => simp [ih, List.getLast?_cons_cons]; omega
  | case4 c cs _ hc ih =>
    cases cs with
    | nil => simp [feedLineList, extendFirst, hc]
    | cons d ds =>
      rw [length_extendFirst _ (feedLineList_ne_nil (List.cons_ne_nil d ds)), ih]
      simp [hc, List.getLast?_cons_cons]

/-- The lines of a text that a compiler counts. -/
def feedLines (s : String) : List String := (feedLineList s.toList).map String.ofList

/-- `countLines` is the number of the lines that a compiler counts. -/
theorem countLines_eq (s : String) : countLines s = (feedLines s).length := by
  rw [feedLines, List.length_map]
  exact (length_feedLineList s.toList).symm

/-- A string that is put together from lines by line feeds has these lines. -/
theorem feedLines_join {ls : List String} (h : ∀ l ∈ ls, Plain l.toList) :
    feedLines (String.join (ls.map (· ++ "\n"))) = ls := by
  have hls : ∀ l ∈ ls.map String.toList, Plain l := by
    intro l hl
    obtain ⟨s, hs, rfl⟩ := List.mem_map.1 hl
    exact h s hs
  have := congrArg (List.map String.ofList) (feedLineList_flatMap hls)
  simpa [feedLines, List.flatMap_map, String.toList_join] using this

/-- Nor does it hold a carriage return. -/
theorem carriage_not_mem_join {ls : List String} (h : ∀ l ∈ ls, Plain l.toList) :
    '\r' ∉ (String.join (ls.map (· ++ "\n"))).toList := by
  intro hr
  rw [String.toList_join, List.flatMap_map, List.mem_flatMap] at hr
  obtain ⟨l, hl, hr⟩ := hr
  rw [String.toList_append, List.mem_append] at hr
  rcases hr with hr | hr
  · exact (h l hl _ hr).2 rfl
  · simp at hr

end ShaderFilter.Text
