import ShaderFilter.Proofs.Classification
import ShaderFilter.Proofs.Text.Fields
import ShaderFilter.Script

/-!
# Padding

Spaces may stand around every field of a directive. `Margin` says where a space does not count:
at the ends of the arguments and next to commas, which in a setting is the first comma only, since
the text behind it is taken as a whole. `Padded.step_eq` says that a line with such spaces is
taken in as the line without them, with the same error where it is refused: all fields are the
same texts, and a space in front does not turn `#param` into `#paramprop`.
-/

namespace ShaderFilter

open Text

/-- A space does not count between these two texts, which together are the arguments of a
directive. -/
inductive Margin (directive : Directive) : List Char → List Char → Prop where
  /-- Before the arguments. -/
  | start {cs : List Char} : Margin directive [] cs
  /-- Behind the arguments. -/
  | stop {cs : List Char} : Margin directive cs []
  /-- Before a comma. -/
  | before {cs ds : List Char} : (directive = .setting → ',' ∉ cs) →
      Margin directive cs (',' :: ds)
  /-- Behind a comma. -/
  | behind {cs ds : List Char} : (directive = .setting → ',' ∉ cs) →
      Margin directive (cs ++ [',']) ds

/-- The arguments `cs` of a directive with any number of spaces more, each one where it does not
count. -/
inductive Padded (directive : Directive) (cs : List Char) : List Char → Prop where
  /-- No space more. -/
  | refl : Padded directive cs cs
  /-- One space more. -/
  | insert {before after : List Char} : Padded directive cs (before ++ after) →
      Margin directive before after → Padded directive cs (before ++ ' ' :: after)

variable {directive : Directive} {cs ds : List Char}

/-! ### One space -/

theorem Margin.strippedPieces (h : Margin directive cs ds) :
    Text.strippedPieces (cs ++ ' ' :: ds) = Text.strippedPieces (cs ++ ds) := by
  cases h with
  | start => exact strippedPieces_cons_space ds
  | stop => rw [strippedPieces_snoc_space, List.append_nil]
  | @before _ ds _ =>
    rw [List.append_cons, strippedPieces_append, strippedPieces_snoc_space, strippedPieces_append]
  | @behind cs _ _ =>
    rw [List.append_assoc, List.append_assoc, List.singleton_append, List.singleton_append,
      strippedPieces_append, strippedPieces_cons_space, strippedPieces_append]

theorem Margin.strip_behind (h : Margin .setting cs ds) :
    strip isSpace (Text.behind ',' (cs ++ ' ' :: ds)) =
      strip isSpace (Text.behind ',' (cs ++ ds)) := by
  cases h with
  | start => rw [List.nil_append, behind_cons_of_ne (by decide), List.nil_append]
  | stop => rw [strip_behind_snoc_space, List.append_nil]
  | @before _ ds hcs =>
    have hspace : ',' ∉ cs ++ [' '] := by simpa using hcs rfl
    rw [List.append_cons, behind_append hspace, behind_append (hcs rfl)]
  | @behind cs _ hcs =>
    rw [List.append_assoc, List.append_assoc, List.singleton_append, List.singleton_append,
      behind_append (hcs rfl), behind_append (hcs rfl), strip_cons isSpace_space]

/-- A prefix without an element ends before this element. -/
theorem prefix_of_prefix_insert {α : Type} {p as bs : List α} {a : α} (ha : a ∉ p)
    (h : p <+: as ++ a :: bs) : p <+: as := by
  have has : as ++ [a] <+: as ++ a :: bs := by simp
  rcases Nat.lt_or_ge as.length p.length with hlt | hle
  · have hlen : (as ++ [a]).length ≤ p.length := by
      rw [List.length_append]
      exact hlt
    have hp : as ++ [a] <+: p := List.prefix_of_prefix_length_le has h hlen
    exact absurd (hp.subset (by simp)) ha
  · exact List.prefix_of_prefix_length_le h (List.prefix_append as (a :: bs)) hle

/-! ### Any number of spaces -/

namespace Padded

theorem strippedPieces (h : Padded directive cs ds) :
    Text.strippedPieces ds = Text.strippedPieces cs := by
  induction h with
  | refl => rfl
  | insert _ hm ih => rw [hm.strippedPieces, ih]

theorem strip_behind (h : Padded .setting cs ds) :
    strip isSpace (Text.behind ',' ds) = strip isSpace (Text.behind ',' cs) := by
  induction h with
  | refl => rfl
  | insert _ hm ih => rw [hm.strip_behind, ih]

theorem not_ending (h : Padded directive cs ds) (hcs : ¬ Directive.ending <+: cs) :
    ¬ Directive.ending <+: ds := by
  induction h with
  | refl => exact hcs
  | insert _ _ ih =>
    intro hprefix
    exact ih ((prefix_of_prefix_insert (by decide) hprefix).trans (List.prefix_append _ _))

variable {line args padded : String}

theorem fields (h : Padded directive args.toList padded.toList) :
    Text.fields padded = Text.fields args := by
  rw [fields_eq, fields_eq, h.strippedPieces]

theorem tail (h : Padded .setting args.toList padded.toList) :
    Text.tail padded = Text.tail args := by
  rw [tail_eq, tail_eq, h.strip_behind]

theorem classify? (h : Padded directive args.toList padded.toList)
    (hc : Directive.classify? line = some (directive, args)) :
    Directive.classify? (directive.marker ++ padded) = some (directive, padded) :=
  Directive.classify?_append fun hd =>
    h.not_ending ((Directive.classify?_eq_some_iff.1 hc).2 hd)

theorem obey_eq (h : Padded directive args.toList padded.toList) :
    Loader.obey directive padded = Loader.obey directive args := by
  cases directive with
  | setting => simp only [Loader.obey, h.fields, h.tail]
  | param | paramProp | texture | keybinding => simp only [Loader.obey, h.fields]

/-- The loader takes a line with more spaces as it takes the line. -/
theorem takeLine_eq (h : Padded directive args.toList padded.toList)
    (hc : Directive.classify? line = some (directive, args)) :
    Loader.takeLine (directive.marker ++ padded) = Loader.takeLine line := by
  simp only [Loader.takeLine, h.classify? hc, hc, h.obey_eq]

theorem step_eq (h : Padded directive args.toList padded.toList)
    (hc : Directive.classify? line = some (directive, args)) (d : Definition) :
    d.step (directive.marker ++ padded) = d.step line := by
  rw [Definition.step, h.takeLine_eq hc, Definition.step]

theorem advance_eq (h : Padded directive args.toList padded.toList)
    (hc : Directive.classify? line = some (directive, args)) (d : Definition) :
    d.advance (directive.marker ++ padded) = d.advance line := by
  rw [Definition.advance, h.takeLine_eq hc, Definition.advance]

end Padded

end ShaderFilter
