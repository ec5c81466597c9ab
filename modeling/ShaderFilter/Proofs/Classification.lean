import ShaderFilter.Directive
import Mathlib.Data.List.Basic
import Mathlib.Data.List.Infix

/-!
# Classification

Markers are tried one after the other, and the first one that starts a line is the longest one that
does. Two markers start the same line only if one of them starts the other
(`Directive.Starts.starts_marker`), so all that the table of directives has to ensure is that none
of its markers starts one behind it (`Directive.LongestFirst`). Any such table finds the longest
match (`Directive.LongestFirst.firstMatch?_eq_some_iff`), whatever else its order is.

So a line is a directive with some arguments if it is the marker of the directive, followed by the
arguments (`Directive.classify?_eq_some_iff`), with one exception, since of two different markers
one starts the other only once: arguments of `#param` that start with `prop` belong to `#paramprop`.
-/

namespace ShaderFilter.Directive

/-- A directive refers to a parameter by its first field. -/
inductive IsReference : Directive → Prop where
  /-- An action on a slot. -/
  | slot : IsReference .paramProp
  /-- An action on a key. -/
  | key : IsReference .keybinding

variable {table table' : List Directive} {d d' : Directive} {line args args' : String}

/-! ### Markers that start a line -/

/-- The marker of the directive starts the line. -/
def Starts (d : Directive) (line : String) : Prop := d.marker.toList <+: line.toList

instance (d : Directive) (line : String) : Decidable (d.Starts line) :=
  inferInstanceAs (Decidable (d.marker.toList <+: line.toList))

theorem arguments?_eq_some_iff :
    d.arguments? line = some args ↔ line = d.marker ++ args := by
  rw [arguments?, Option.map_eq_some_iff]
  simp only [List.isPrefixOf?_eq_some_iff_append_eq]
  constructor
  · rintro ⟨cs, h, rfl⟩
    rw [← String.toList_inj, String.toList_append, String.toList_ofList, h]
  · rintro rfl
    exact ⟨args.toList, String.toList_append.symm, String.ofList_toList⟩

theorem arguments?_eq_none_iff : d.arguments? line = none ↔ ¬ d.Starts line := by
  rw [arguments?, Option.map_eq_none_iff, ← Option.not_isSome_iff_eq_none,
    List.isSome_isPrefixOf?_eq_isPrefixOf, List.isPrefixOf_iff_prefix, Starts]

theorem starts_append (d : Directive) (args : String) : d.Starts (d.marker ++ args) :=
  ⟨args.toList, String.toList_append.symm⟩

/-- Of two markers that start the same line, the one that is not longer starts the other. -/
theorem Starts.starts_marker (h : d.Starts line) (h' : d'.Starts line)
    (hle : d.marker.length ≤ d'.marker.length) : d.Starts d'.marker :=
  List.prefix_of_prefix_length_le h h' hle

theorem marker_injective : Function.Injective marker := by
  intro d d' h
  cases d <;> cases d' <;> simp_all [marker]

/-- Of two different markers, one starts the other only once. -/
theorem starts_marker_iff : d.Starts d'.marker ↔ d = d' ∨ d = .param ∧ d' = .paramProp := by
  cases d <;> cases d' <;> decide

/-- What is left of the longer marker behind the shorter one. -/
def ending : List Char := ['p', 'r', 'o', 'p']

theorem starts_paramProp_append :
    Starts .paramProp (marker .param ++ args) ↔ ending <+: args.toList := by
  have hmarker : (marker .paramProp).toList = (marker .param).toList ++ ending := by decide
  rw [Starts, String.toList_append, hmarker, List.prefix_append_right_inj]

/-! ### The longest match -/

/-- A line is the marker of a directive with its arguments, and no longer marker starts it. -/
structure LongestMatch (line : String) (directive : Directive) (args : String) : Prop where
  /-- The marker comes first and the arguments behind it. -/
  line_eq : line = directive.marker ++ args
  /-- No longer marker starts the line. -/
  longest : ∀ d : Directive, directive.marker.length < d.marker.length → ¬ d.Starts line

theorem LongestMatch.starts (h : LongestMatch line d args) : d.Starts line := by
  rw [h.line_eq]
  exact starts_append d args

/-- A line has one longest match at most. -/
theorem LongestMatch.unique (h : LongestMatch line d args) (h' : LongestMatch line d' args') :
    d = d' ∧ args = args' := by
  have hle : d.marker.length ≤ d'.marker.length :=
    Nat.le_of_not_lt fun hlt => h'.longest d hlt h.starts
  have hge : d'.marker.length ≤ d.marker.length :=
    Nat.le_of_not_lt fun hlt => h.longest d' hlt h'.starts
  have hmarker : d.marker = d'.marker :=
    String.toList_inj.1 ((h.starts.starts_marker h'.starts hle).eq_of_length_le hge)
  obtain rfl := marker_injective hmarker
  exact ⟨rfl, (String.append_right_inj _).1 (h.line_eq.symm.trans h'.line_eq)⟩

/-- A marker with arguments is the longest match, unless these complete the longer marker. -/
theorem longestMatch_iff :
    LongestMatch line d args ↔
      line = d.marker ++ args ∧ (d = .param → ¬ ending <+: args.toList) := by
  constructor
  · intro h
    refine ⟨h.line_eq, ?_⟩
    rintro rfl hending
    have hlonger : Starts .paramProp line := by
      rw [h.line_eq]
      exact starts_paramProp_append.2 hending
    exact h.longest .paramProp (by decide) hlonger
  · rintro ⟨rfl, h⟩
    refine ⟨rfl, fun d' hlt hstarts => ?_⟩
    have hmarker : d.Starts d'.marker := (starts_append d args).starts_marker hstarts hlt.le
    obtain rfl | ⟨rfl, rfl⟩ := starts_marker_iff.1 hmarker
    · exact lt_irrefl _ hlt
    · exact h rfl (starts_paramProp_append.1 hstarts)

/-! ### Tables of directives -/

/-- The first directive of a table whose marker starts the line, with the arguments behind it. -/
def firstMatch? (table : List Directive) (line : String) : Option (Directive × String) :=
  table.findSome? fun d => (d.arguments? line).map (d, ·)

/-- No directive of the table has a marker that starts one behind it. -/
def LongestFirst (table : List Directive) : Prop := table.Pairwise fun d d' => ¬ d.Starts d'.marker

/-- A table lists the directives of another one, and those of which one marker starts the other in
the same order. -/
structure Reordered (table table' : List Directive) : Prop where
  /-- The directives are the same. -/
  perm : table.Perm table'
  /-- Directives of which one marker starts the other keep their order. -/
  order : ∀ d d', d.Starts d'.marker ∨ d'.Starts d.marker →
    [d, d'].Sublist table → [d, d'].Sublist table'

theorem mem_all (d : Directive) : d ∈ all := by cases d <;> decide

theorem longestFirst_all : LongestFirst all := by unfold LongestFirst; decide

theorem Reordered.longestFirst (h : Reordered table table') (hfirst : LongestFirst table') :
    LongestFirst table := by
  refine List.pairwise_iff_forall_sublist.2 fun {d d'} hpair hstarts => ?_
  have hpair' : [d, d'].Sublist table' := h.order d d' (.inl hstarts) hpair
  exact List.pairwise_iff_forall_sublist.1 hfirst hpair' hstarts

theorem firstMatch?_eq_none : firstMatch? table line = none ↔ ∀ d ∈ table, ¬ d.Starts line := by
  simp only [firstMatch?, List.findSome?_eq_none_iff, Option.map_eq_none_iff,
    arguments?_eq_none_iff]

theorem exists_of_firstMatch? (h : firstMatch? table line = some (d, args)) :
    ∃ before after, table = before ++ d :: after ∧ line = d.marker ++ args ∧
      ∀ d' ∈ before, ¬ d'.Starts line := by
  obtain ⟨before, _, after, rfl, hargs, hbefore⟩ := List.findSome?_eq_some_iff.1 h
  obtain ⟨_, hline, heq⟩ := Option.map_eq_some_iff.1 hargs
  cases heq
  exact ⟨before, after, rfl, arguments?_eq_some_iff.1 hline, fun d' hd' =>
    arguments?_eq_none_iff.1 (Option.map_eq_none_iff.1 (hbefore d' hd'))⟩

/-- In a table with longer markers first, the first match is the longest one. A longer marker that
starts the line is not before the one that was found, and none behind it starts with that one. -/
theorem LongestFirst.longestMatch (hfirst : LongestFirst table) (hmem : ∀ d, d ∈ table)
    (h : firstMatch? table line = some (d, args)) : LongestMatch line d args := by
  obtain ⟨before, after, rfl, hline, hbefore⟩ := exists_of_firstMatch? h
  refine ⟨hline, fun d' hlt hstarts => ?_⟩
  have hmarker : d.Starts d'.marker :=
    Starts.starts_marker (hline ▸ starts_append d args) hstarts hlt.le
  obtain hd' | hd' := List.mem_append.1 (hmem d')
  · exact hbefore d' hd' hstarts
  · obtain rfl | hd' := List.mem_cons.1 hd'
    · exact lt_irrefl _ hlt
    · have hafter := (List.pairwise_append.1 hfirst).2.1
      exact (List.pairwise_cons.1 hafter).1 d' hd' hmarker

/-- A table with longer markers first finds the longest match, whatever else its order is. -/
theorem LongestFirst.firstMatch?_eq_some_iff (hfirst : LongestFirst table)
    (hmem : ∀ d, d ∈ table) :
    firstMatch? table line = some (d, args) ↔ LongestMatch line d args := by
  refine ⟨hfirst.longestMatch hmem, fun h => ?_⟩
  have hsome : firstMatch? table line ≠ none := fun hnone =>
    firstMatch?_eq_none.1 hnone d (hmem d) h.starts
  obtain ⟨⟨d', args'⟩, hmatch⟩ := Option.ne_none_iff_exists'.1 hsome
  obtain ⟨rfl, rfl⟩ := h.unique (hfirst.longestMatch hmem hmatch)
  exact hmatch

-- With the shorter of the two markers first, the longer one is never found.
example : firstMatch? [.param, .paramProp] "#paramprop x" = some (.param, "prop x") := by decide

/-! ### Lines -/

theorem classify?_eq_some_iff_longestMatch :
    classify? line = some (d, args) ↔ LongestMatch line d args :=
  longestFirst_all.firstMatch?_eq_some_iff mem_all

/-- **A line is a directive with arguments if it is its marker and the arguments**, unless these
complete the longer marker. -/
theorem classify?_eq_some_iff :
    classify? line = some (d, args) ↔
      line = d.marker ++ args ∧ (d = .param → ¬ ending <+: args.toList) :=
  classify?_eq_some_iff_longestMatch.trans longestMatch_iff

/-- A marker with arguments is a directive with these arguments. -/
theorem classify?_append (h : d = .param → ¬ ending <+: args.toList) :
    classify? (d.marker ++ args) = some (d, args) :=
  classify?_eq_some_iff.2 ⟨rfl, h⟩

/-- **The longest marker decides.** A line is a directive with arguments if it is the marker and the
arguments and no longer marker starts it, and part of the source if no marker starts it. There is
one such directive at most, with one text of arguments, and the marker and the arguments are the
line again. Arguments of `#param` do not complete the marker `#paramprop`.

The table in which the markers are looked up counts only as far as one marker starts another: any
table of the same directives that keeps the order of these gives the same result. -/
theorem longest_marker_decides (line : String) :
    (∀ d args, classify? line = some (d, args) ↔ LongestMatch line d args) ∧
    (classify? line = none ↔ ∀ d : Directive, ¬ d.Starts line) ∧
    (∀ d d' args args', LongestMatch line d args → LongestMatch line d' args' →
      d = d' ∧ args = args') ∧
    (∀ d args, classify? line = some (d, args) → d.marker ++ args = line) ∧
    (∀ args, classify? line = some (.param, args) → ¬ ending <+: args.toList) ∧
    ∀ table, Reordered table all → firstMatch? table line = classify? line := by
  refine ⟨fun d args => classify?_eq_some_iff_longestMatch, ?_,
    fun d d' args args' => LongestMatch.unique,
    fun d args h => (classify?_eq_some_iff.1 h).1.symm,
    fun args h => (classify?_eq_some_iff.1 h).2 rfl, fun table htable => ?_⟩
  · have hnone : classify? line = none ↔ ∀ d ∈ all, ¬ d.Starts line := firstMatch?_eq_none
    simpa only [mem_all, forall_const] using hnone
  · have hmem (d : Directive) : d ∈ table := htable.perm.mem_iff.2 (mem_all d)
    refine Option.ext fun ⟨d, args⟩ => ?_
    rw [(htable.longestFirst longestFirst_all).firstMatch?_eq_some_iff hmem,
      classify?_eq_some_iff_longestMatch]

/-- Both markers start this line. The table has all directives at other places, but the longer one
of the two markers still before the other. -/
theorem longest_marker_decides_reordered :
    Starts .param "#paramprop x,OnAdd,1,set" ∧
    LongestMatch "#paramprop x,OnAdd,1,set" .paramProp " x,OnAdd,1,set" ∧
    Reordered [.paramProp, .param, .setting, .keybinding, .texture] all ∧
    firstMatch? [.paramProp, .param, .setting, .keybinding, .texture] "#paramprop x,OnAdd,1,set" =
      some (.paramProp, " x,OnAdd,1,set") := by
  have hreordered : Reordered [.paramProp, .param, .setting, .keybinding, .texture] all := by
    refine ⟨by decide, fun d d' => ?_⟩
    cases d <;> cases d' <;> decide
  obtain ⟨hmatch, -, -, -, -, htable⟩ := longest_marker_decides "#paramprop x,OnAdd,1,set"
  have hclass : classify? "#paramprop x,OnAdd,1,set" = some (.paramProp, " x,OnAdd,1,set") := by
    decide
  exact ⟨by decide, (hmatch _ _).1 hclass, hreordered, (htable _ hreordered).trans hclass⟩

end ShaderFilter.Directive
