import ShaderFilter.Document
import ShaderFilter.Proofs.Text.Quoted

/-!
# Documents, read back

The text of a document says where the document ends: the first character tells the kind of the
document, a string ends with its closing quote, and behind each item of an array or an object
there is a comma or a new line. So from a text that begins with that of a document the document
is known (`Readable.known`), and two documents with the same text are the same, provided that
their atoms look like atoms (`Readable`).
-/

namespace ShaderFilter.Document

/-- The characters that end an atom, or start a document that is not one. -/
def delimiters : List Char := ['"', '[', '\x7b', ',', '\n']

/-- All atoms of the document have a text, and no delimiters in it. -/
inductive Readable : Document → Prop where
  /-- An atom has a text without delimiters. -/
  | atom {t : String} : t.toList ≠ [] → (∀ c ∈ t.toList, c ∉ delimiters) → Readable (.atom t)
  /-- Strings may be any strings. -/
  | string (s : String) : Readable (.string s)
  /-- The items of an array are readable. -/
  | array {items : List Document} : (∀ d ∈ items, Readable d) → Readable (.array items)
  /-- The fields of an object are readable, and have any names. -/
  | object {fields : List (String × Document)} : (∀ f ∈ fields, Readable f.2) →
      Readable (.object fields)

@[simp] theorem readable_string (s : String) : (string s).Readable := .string s

@[simp] theorem readable_array {items : List Document} :
    (array items).Readable ↔ ∀ d ∈ items, d.Readable := by
  constructor
  · intro h
    cases h with
    | array h => exact h
  · exact .array

@[simp] theorem readable_object {fields : List (String × Document)} :
    (object fields).Readable ↔ ∀ f ∈ fields, f.2.Readable := by
  constructor
  · intro h
    cases h with
    | object h => exact h
  · exact .object

/-! ### Kinds of documents -/

/-- The kinds of documents. -/
inductive Shape where
  /-- Numbers, truth values and null. -/
  | atom
  /-- Strings. -/
  | string
  /-- Arrays. -/
  | array
  /-- Objects. -/
  | object
  deriving DecidableEq

/-- The kind of a document. -/
def shape : Document → Shape
  | .atom _ => .atom
  | .string _ => .string
  | .array _ => .array
  | .object _ => .object

/-- The kind that a first character tells. -/
def Shape.ofChar (c : Char) : Shape :=
  if c = '"' then .string else if c = '[' then .array else if c = '\x7b' then .object else .atom

theorem enclose_toList (opening closing : String) (depth : Nat) (items : List String) :
    ∃ cs, (enclose opening closing depth items).toList = opening.toList ++ cs := by
  cases items with
  | nil => exact ⟨closing.toList, String.toList_append⟩
  | cons x xs => simp [enclose]

/-- The first character of the text tells the kind of the document. -/
theorem Readable.first {d : Document} (hd : d.Readable) (depth : Nat) :
    ∃ c cs, (d.text depth).toList = c :: cs ∧ Shape.ofChar c = d.shape := by
  cases hd with
  | @atom t hne ht =>
    obtain ⟨c, cs, hc⟩ := List.exists_cons_of_ne_nil hne
    refine ⟨c, cs, by rw [text, hc], ?_⟩
    have hplain := ht c (by rw [hc]; exact List.mem_cons_self)
    simp only [delimiters, List.mem_cons, List.not_mem_nil, or_false, not_or] at hplain
    simp [Shape.ofChar, shape, hplain]
  | string s => exact ⟨'"', _, by rw [text, Text.quote, String.toList_ofList]; rfl, rfl⟩
  | @array items _ =>
    obtain ⟨cs, hcs⟩ := enclose_toList "[" "]" depth (itemTexts (depth + 1) items)
    exact ⟨'[', cs, by rw [text, hcs]; rfl, rfl⟩
  | @object fields _ =>
    obtain ⟨cs, hcs⟩ := enclose_toList "\x7b" "\x7d" depth (fieldTexts (depth + 1) fields)
    exact ⟨'\x7b', cs, by rw [text, hcs]; rfl, rfl⟩

/-! ### Where an item ends -/

/-- What comes after a document: nothing, or a delimiter behind an item. -/
def Stops (rest : List Char) : Prop := ∀ c ∈ rest.head?, c = ',' ∨ c = '\n'

/-- An atom ends at the first delimiter. -/
theorem atom_append_inj {as bs r s : List Char} (ha : ∀ c ∈ as, c ∉ delimiters)
    (hb : ∀ c ∈ bs, c ∉ delimiters) (hr : Stops r) (hs : Stops s) (h : as ++ r = bs ++ s) :
    as = bs ∧ r = s := by
  have hcut {cs q : List Char} (hc : ∀ c ∈ cs, c ∉ delimiters) (hq : Stops q) :
      (cs ++ q).takeWhile (· ∉ delimiters) = cs := by
    rw [List.takeWhile_append_of_pos fun c h => decide_eq_true (hc c h)]
    cases q with
    | nil => simp
    | cons d q =>
      have : d ∈ delimiters := by rcases hq d rfl with rfl | rfl <;> decide
      simp [this]
  obtain rfl : as = bs := by rw [← hcut ha hr, h, hcut hb hs]
  exact ⟨rfl, List.append_cancel_left h⟩

section Items

variable {α : Type} (P : α → Prop) (f : α → String)

/-- From a text that begins with that of an item, the item and what comes after it are known. -/
def Known (x : α) : Prop :=
  ∀ ⦃y : α⦄ ⦃r s : List Char⦄, P y → Stops r → Stops s →
    (f x).toList ++ r = (f y).toList ++ s → x = y ∧ r = s

/-- What comes after an item: the other items, each after a comma, and the closing bracket. -/
def tail (closing : String) (depth : Nat) : List String → List Char
  | [] => (newLine depth ++ closing).toList
  | x :: xs => ',' :: ((newLine (depth + 1)).toList ++ x.toList ++ tail closing depth xs)

theorem enclose_cons (opening closing : String) (depth : Nat) (x : String) (xs : List String) :
    (enclose opening closing depth (x :: xs)).toList =
      opening.toList ++ (newLine (depth + 1)).toList ++ x.toList ++ tail closing depth xs := by
  have htail (y : String) : (",".intercalate ((y :: xs).map (newLine (depth + 1) ++ ·)) ++
      newLine depth ++ closing).toList =
        (newLine (depth + 1) ++ y).toList ++ tail closing depth xs := by
    induction xs generalizing y with
    | nil => simp [tail]
    | cons x xs ih =>
      have := ih x
      rw [List.map_cons, List.map_cons, String.intercalate_cons_cons, ← List.map_cons]
      simp only [tail, String.toList_append, List.append_assoc] at this ⊢
      rw [this]
      rfl
  have := htail x
  simp only [enclose, String.toList_append, List.append_assoc] at this ⊢
  rw [this]

theorem stops_tail (closing : String) (depth : Nat) (xs : List String) (r : List Char) :
    Stops (tail closing depth xs ++ r) := by
  cases xs with
  | nil =>
    rintro c hc
    rw [tail, newLine] at hc
    simp at hc
    exact .inr hc.symm
  | cons x xs =>
    rintro c hc
    exact .inl (Option.some.inj hc).symm

variable {P f}

/-- After an item it is known which items follow. -/
theorem tail_append_inj {closing : String} {depth : Nat} {xs ys : List α} {r s : List Char}
    (hxs : ∀ x ∈ xs, Known P f x) (hys : ∀ y ∈ ys, P y)
    (h : tail closing depth (xs.map f) ++ r = tail closing depth (ys.map f) ++ s) :
    xs = ys ∧ r = s := by
  -- A comma and a new line tell whether there is another item.
  have hends (y : α) (ys : List α) (q t : List Char) :
      tail closing depth [] ++ q ≠ tail closing depth ((y :: ys).map f) ++ t := by
    intro h
    have := congrArg List.head? h
    simp [tail, newLine] at this
  induction xs generalizing ys with
  | nil =>
    cases ys with
    | nil => exact ⟨rfl, List.append_cancel_left h⟩
    | cons y ys => exact absurd h (hends y ys r s)
  | cons x xs ih =>
    cases ys with
    | nil => exact absurd h.symm (hends x xs s r)
    | cons y ys =>
      obtain ⟨hx, hxs'⟩ := List.forall_mem_cons.1 hxs
      obtain ⟨hy, hys'⟩ := List.forall_mem_cons.1 hys
      simp only [List.map_cons, tail, List.cons_append, List.append_assoc, List.cons.injEq,
        true_and, List.append_cancel_left_eq] at h
      obtain ⟨rfl, hrest⟩ := hx hy (stops_tail _ _ _ _) (stops_tail _ _ _ _) h
      obtain ⟨rfl, rfl⟩ := ih hxs' hys' hrest
      exact ⟨rfl, rfl⟩

/-- Between brackets it is known which items there are. -/
theorem enclose_append_inj {opening closing : String} {depth : Nat} {xs ys : List α}
    {r s : List Char} (hne : closing.toList ≠ []) (hclosing : closing.toList.head? ≠ some '\n')
    (hxs : ∀ x ∈ xs, Known P f x) (hys : ∀ y ∈ ys, P y)
    (h : (enclose opening closing depth (xs.map f)).toList ++ r =
      (enclose opening closing depth (ys.map f)).toList ++ s) : xs = ys ∧ r = s := by
  have hempty (y : α) (ys : List α) (q t : List Char) :
      (enclose opening closing depth []).toList ++ q ≠
        (enclose opening closing depth ((y :: ys).map f)).toList ++ t := by
    intro h
    rw [List.map_cons, enclose_cons] at h
    simp only [enclose, String.toList_append, List.append_assoc, List.append_cancel_left_eq,
      newLine] at h
    obtain ⟨c, cs, hc⟩ := List.exists_cons_of_ne_nil hne
    rw [hc] at h hclosing
    exact hclosing (congrArg some (List.cons.inj h).1)
  cases xs with
  | nil =>
    cases ys with
    | nil => exact ⟨rfl, List.append_cancel_left h⟩
    | cons y ys => exact absurd h (hempty y ys r s)
  | cons x xs =>
    cases ys with
    | nil => exact absurd h.symm (hempty x xs s r)
    | cons y ys =>
      obtain ⟨hx, hxs'⟩ := List.forall_mem_cons.1 hxs
      obtain ⟨hy, hys'⟩ := List.forall_mem_cons.1 hys
      simp only [List.map_cons, enclose_cons, List.append_assoc, List.append_cancel_left_eq] at h
      obtain ⟨rfl, hrest⟩ := hx hy (stops_tail _ _ _ _) (stops_tail _ _ _ _) h
      obtain ⟨rfl, rfl⟩ := tail_append_inj hxs' hys' hrest
      exact ⟨rfl, rfl⟩

end Items

/-! ### Documents -/

/-- The text of a field at a depth. -/
def fieldText (depth : Nat) (f : String × Document) : String :=
  Text.quote f.1 ++ ": " ++ f.2.text depth

theorem itemTexts_eq (depth : Nat) (items : List Document) :
    itemTexts depth items = items.map (text depth) := by
  induction items with
  | nil => rw [itemTexts, List.map_nil]
  | cons d ds ih => rw [itemTexts, List.map_cons, ih]

theorem fieldTexts_eq (depth : Nat) (fields : List (String × Document)) :
    fieldTexts depth fields = fields.map (fieldText depth) := by
  induction fields with
  | nil => rw [fieldTexts, List.map_nil]
  | cons f fs ih => rw [fieldTexts, List.map_cons, ih, fieldText]

/-- A field is known when its name and its document are. -/
theorem known_field {depth : Nat} {f : String × Document}
    (hf : Known Readable (text depth) f.2) :
    Known (fun f : String × Document => f.2.Readable) (fieldText depth) f := by
  intro g r s hg hr hs h
  simp only [fieldText, String.toList_append, List.append_assoc] at h
  obtain ⟨hname, h⟩ := Text.quote_append_inj h
  obtain ⟨hdocument, hrs⟩ := hf hg hr hs (List.append_cancel_left h)
  exact ⟨Prod.ext hname hdocument, hrs⟩

/-- Documents whose texts begin in the same way are of the same kind. -/
theorem Readable.shape_eq {d e : Document} (hd : d.Readable) (he : e.Readable) {depth : Nat}
    {r s : List Char} (h : (d.text depth).toList ++ r = (e.text depth).toList ++ s) :
    d.shape = e.shape := by
  obtain ⟨a, as, ha, hshape⟩ := hd.first depth
  obtain ⟨b, bs, hb, hshape'⟩ := he.first depth
  rw [ha, hb] at h
  rw [← hshape, ← hshape', (List.cons.inj h).1]

/-- **From a text that begins with that of a document, the document and what comes after it are
known.** -/
theorem Readable.known {d : Document} (hd : d.Readable) (depth : Nat) :
    Known Readable (text depth) d := by
  induction hd generalizing depth with
  | @atom t hne ht =>
    intro e r s he hr hs h
    have hshape := Readable.shape_eq (.atom hne ht) he h
    cases he with
    | @atom u _ hu =>
      simp only [text] at h
      obtain ⟨htu, hrs⟩ := atom_append_inj ht hu hr hs h
      exact ⟨congrArg Document.atom (String.toList_injective htu), hrs⟩
    | string | array | object => cases hshape
  | string t =>
    intro e r s he hr hs h
    have hshape := Readable.shape_eq (.string t) he h
    cases he with
    | string u =>
      simp only [text] at h
      obtain ⟨rfl, rfl⟩ := Text.quote_append_inj h
      exact ⟨rfl, rfl⟩
    | atom | array | object => cases hshape
  | @array items hitems ih =>
    intro e r s he hr hs h
    have hshape := Readable.shape_eq (.array hitems) he h
    cases he with
    | @array others hothers =>
      simp only [text, itemTexts_eq] at h
      obtain ⟨rfl, rfl⟩ := enclose_append_inj (by decide) (by decide)
        (fun d hd => ih d hd (depth + 1)) hothers h
      exact ⟨rfl, rfl⟩
    | atom | string | object => cases hshape
  | @object fields hfields ih =>
    intro e r s he hr hs h
    have hshape := Readable.shape_eq (.object hfields) he h
    cases he with
    | @object others hothers =>
      simp only [text, fieldTexts_eq] at h
      obtain ⟨rfl, rfl⟩ := enclose_append_inj (P := fun f => f.2.Readable) (by decide) (by decide)
        (fun f hf => known_field (ih f hf (depth + 1))) hothers h
      exact ⟨rfl, rfl⟩
    | atom | string | array => cases hshape

theorem Readable.eq_of_text_eq {d e : Document} (hd : d.Readable) (he : e.Readable) {depth : Nat}
    (h : d.text depth = e.text depth) : d = e := by
  have hend : Stops [] := by simp [Stops]
  exact (hd.known depth he hend hend (congrArg (·.toList ++ []) h)).1

end ShaderFilter.Document
