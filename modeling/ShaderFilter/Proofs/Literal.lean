import ShaderFilter.Action
import Mathlib.Data.List.Basic
import Mathlib.Tactic.Tauto

/-!
# Literals and words

What a field has to look like to be a number, a truth value, a key or a word of a vocabulary.
The grammars are stated here without the readers, over the text alone, and for each reader a
lemma says that it accepts exactly what its grammar describes.
-/

namespace ShaderFilter

namespace Number

/-! ### Integers -/

/-- One or more decimal digits. -/
def Digits (ds : List Char) : Prop := ds ≠ [] ∧ ∀ c ∈ ds, c.isDigit

/-- A decimal notation of an integer: at most one sign, then digits, also with zeros in front. -/
inductive Numeral : List Char → Int → Prop where
  /-- Digits without a sign. -/
  | plain {ds : List Char} : Digits ds → Numeral ds (digitsValue ds)
  /-- Digits after a plus sign. -/
  | plus {ds : List Char} : Digits ds → Numeral ('+' :: ds) (digitsValue ds)
  /-- Digits after a minus sign. -/
  | minus {ds : List Char} : Digits ds → Numeral ('-' :: ds) (-digitsValue ds)

/-- What splitting a sign off can find. -/
theorem splitSign_cases (cs : List Char) :
    (∃ ds, cs = '-' :: ds ∧ splitSign cs = (true, ds)) ∨
    (∃ ds, cs = '+' :: ds ∧ splitSign cs = (false, ds)) ∨
    (splitSign cs = (false, cs) ∧ cs.head? ≠ some '-' ∧ cs.head? ≠ some '+') := by
  fun_cases splitSign cs with
  | case1 ds => exact .inl ⟨ds, rfl, rfl⟩
  | case2 ds => exact .inr (.inl ⟨ds, rfl, rfl⟩)
  | case3 _ hm hp =>
    refine .inr (.inr ⟨rfl, fun h => ?_, fun h => ?_⟩)
    · obtain ⟨ds, rfl⟩ := List.head?_eq_some_iff.1 h
      exact hm ds rfl
    · obtain ⟨ds, rfl⟩ := List.head?_eq_some_iff.1 h
      exact hp ds rfl

theorem not_digits_sign {c : Char} (hc : c = '-' ∨ c = '+') (ds : List Char) :
    ¬ Digits (c :: ds) := by
  rintro ⟨-, h⟩
  have := h c List.mem_cons_self
  rcases hc with rfl | rfl <;> exact absurd this (by decide)

theorem digits_iff {ds : List Char} : Digits ds ↔ ds ≠ [] ∧ ds.all Char.isDigit = true := by
  rw [Digits, List.all_eq_true]

theorem integer?_of_splitSign {cs ds : List Char} {negative : Bool}
    (h : splitSign cs = (negative, ds)) {n : Int} :
    integer? cs = some n ↔ Digits ds ∧ signed negative (digitsValue ds) = n := by
  simp only [integer?, h, ← digits_iff, Option.ite_none_right_eq_some, Option.some.injEq]

/-- The reader of integers accepts the decimal notations. -/
theorem integer?_eq_some {cs : List Char} {n : Int} : integer? cs = some n ↔ Numeral cs n := by
  constructor
  · intro h
    rcases splitSign_cases cs with ⟨ds, rfl, hs⟩ | ⟨ds, rfl, hs⟩ | ⟨hs, -, -⟩ <;>
      obtain ⟨hd, rfl⟩ := (integer?_of_splitSign hs).1 h
    · exact .minus hd
    · exact .plus hd
    · exact .plain hd
  · intro h
    cases h with
    | minus hd => exact (integer?_of_splitSign rfl).2 ⟨hd, rfl⟩
    | plus hd => exact (integer?_of_splitSign rfl).2 ⟨hd, rfl⟩
    | plain hd =>
      rcases splitSign_cases cs with ⟨ds, rfl, -⟩ | ⟨ds, rfl, -⟩ | ⟨hs, -, -⟩
      · exact absurd hd (not_digits_sign (.inl rfl) ds)
      · exact absurd hd (not_digits_sign (.inr rfl) ds)
      · exact (integer?_of_splitSign hs).2 ⟨hd, rfl⟩

/-- A field is a decimal notation of a word, with any blanks around it. -/
def Word.Written (field : String) (w : Word) : Prop :=
  Numeral (Text.strip Text.isBlank field.toList) w.val

/-- The reader of words accepts the decimal notations of words. -/
theorem Word.read?_eq_some {field : String} {w : Word} :
    Word.read? field = some w ↔ Word.Written field w := by
  simp only [Word.read?, Option.bind_eq_bind, Option.bind_eq_some_iff, integer?_eq_some,
    Word.Written]
  constructor
  · rintro ⟨n, hn, hw⟩
    unfold Word.ofInt? at hw
    split at hw
    · cases hw
      exact hn
    · cases hw
  · intro h
    exact ⟨w.val, h, by simp [Word.ofInt?, w.least_le, w.le_greatest]⟩

/-! ### Floating-point numbers -/

/-- Decimal digits with at most one point among them, and at least one digit. -/
inductive Mantissa : List Char → Prop where
  /-- Digits without a point. -/
  | whole {ds : List Char} : Digits ds → Mantissa ds
  /-- Digits before or after a point. -/
  | point {a b : List Char} : (∀ c ∈ a, c.isDigit) → (∀ c ∈ b, c.isDigit) → (a ≠ [] ∨ b ≠ []) →
      Mantissa (a ++ '.' :: b)

/-- An exponent, which may be missing. -/
inductive Exponent : List Char → Prop where
  /-- No exponent. -/
  | missing : Exponent []
  /-- An integer after the letter e. -/
  | written {c : Char} {cs : List Char} {n : Int} :
      c = 'e' ∨ c = 'E' → Numeral cs n → Exponent (c :: cs)

/-- The words for an infinity and for no number. -/
def specialWords : List (List Char) :=
  [['i', 'n', 'f'], ['i', 'n', 'f', 'i', 'n', 'i', 't', 'y'], ['n', 'a', 'n']]

/-- A floating-point number without a sign. -/
inductive Magnitude : List Char → Prop where
  /-- A mantissa with an exponent. -/
  | decimal {m e : List Char} : Mantissa m → Exponent e → Magnitude (m ++ e)
  /-- A word, in any case of letters. -/
  | special {w : List Char} : w.map Char.toLower ∈ specialWords → Magnitude w

/-- A notation of a floating-point number: at most one sign, then a number without a sign. -/
inductive Floating : List Char → Prop where
  /-- A number without a sign. -/
  | plain {cs : List Char} : Magnitude cs → Floating cs
  /-- A number after a plus sign. -/
  | plus {cs : List Char} : Magnitude cs → Floating ('+' :: cs)
  /-- A number after a minus sign. -/
  | minus {cs : List Char} : Magnitude cs → Floating ('-' :: cs)

namespace Single

theorem exponent?_isSome {cs : List Char} : (exponent? cs).isSome ↔ Exponent cs := by
  cases cs with
  | nil => exact ⟨fun _ => .missing, fun _ => rfl⟩
  | cons c cs =>
    simp only [exponent?, Option.isSome_iff_exists, Option.ite_none_right_eq_some, integer?_eq_some]
    constructor
    · rintro ⟨n, hc, hn⟩
      exact .written hc hn
    · rintro (_ | ⟨hc, hn⟩)
      exact ⟨_, hc, hn⟩

/-- Neither a digit nor a point starts an exponent. -/
theorem head_of_exponent {c : Char} {cs : List Char} (h : Exponent (c :: cs)) :
    c.isDigit = false ∧ c ≠ '.' := by
  cases h with
  | written hc _ => rcases hc with rfl | rfl <;> decide

theorem takeWhile_append_exponent {ds e : List Char} (hd : ∀ c ∈ ds, c.isDigit) (he : Exponent e) :
    (ds ++ e).takeWhile Char.isDigit = ds ∧ (ds ++ e).dropWhile Char.isDigit = e := by
  rw [List.takeWhile_append_of_pos hd, List.dropWhile_append_of_pos hd]
  cases e with
  | nil => simp
  | cons c cs => simp [(head_of_exponent he).1]

theorem splitFraction_exponent {e : List Char} (he : Exponent e) : splitFraction e = ([], e) := by
  unfold splitFraction
  split
  · exact absurd rfl (head_of_exponent he).2
  · rfl

/-- Digits without a point are cut off before the exponent. -/
theorem cut_whole {a e : List Char} (ha : ∀ c ∈ a, c.isDigit) (he : Exponent e) :
    (a ++ e).takeWhile Char.isDigit = a ∧
      splitFraction ((a ++ e).dropWhile Char.isDigit) = ([], e) := by
  obtain ⟨ht, hr⟩ := takeWhile_append_exponent ha he
  exact ⟨ht, by rw [hr, splitFraction_exponent he]⟩

/-- Digits around a point are cut off at the point and before the exponent. -/
theorem cut_point {a b e : List Char} (ha : ∀ c ∈ a, c.isDigit) (hb : ∀ c ∈ b, c.isDigit)
    (he : Exponent e) :
    (a ++ '.' :: b ++ e).takeWhile Char.isDigit = a ∧
      splitFraction ((a ++ '.' :: b ++ e).dropWhile Char.isDigit) = (b, e) := by
  obtain ⟨ht, hr⟩ := takeWhile_append_exponent hb he
  rw [List.append_assoc, List.takeWhile_append_of_pos ha, List.dropWhile_append_of_pos ha]
  simp [splitFraction, ht, hr]

/-- What the reader of numbers without a sign cuts a text into. -/
theorem unsigned?_isSome_iff {negative : Bool} {cs : List Char} :
    (unsigned? negative cs).isSome ↔
      (exponent? (splitFraction (cs.dropWhile Char.isDigit)).2).isSome ∧
      ¬ (cs.takeWhile Char.isDigit = [] ∧ (splitFraction (cs.dropWhile Char.isDigit)).1 = []) := by
  unfold unsigned?
  cases h : exponent? (splitFraction (cs.dropWhile Char.isDigit)).2 <;> simp [h]

theorem unsigned?_isSome {negative : Bool} {cs : List Char} :
    (unsigned? negative cs).isSome ↔ ∃ m e, cs = m ++ e ∧ Mantissa m ∧ Exponent e := by
  rw [unsigned?_isSome_iff, exponent?_isSome]
  have hw : ∀ l : List Char, ∀ c ∈ l.takeWhile Char.isDigit, c.isDigit :=
    fun l => List.all_eq_true.1 List.all_takeWhile
  constructor
  · rintro ⟨he, hne⟩
    -- The first digits end before a point or before the exponent.
    have ha := hw cs
    have hcs : cs.takeWhile Char.isDigit ++ cs.dropWhile Char.isDigit = cs :=
      List.takeWhile_append_dropWhile
    generalize cs.takeWhile Char.isDigit = a at ha hcs hne
    generalize cs.dropWhile Char.isDigit = r at he hcs hne
    subst hcs
    revert he hne
    fun_cases splitFraction r with
    | case1 r =>
      intro he hne
      have hb := hw r
      have hr : r.takeWhile Char.isDigit ++ r.dropWhile Char.isDigit = r :=
        List.takeWhile_append_dropWhile
      refine ⟨a ++ '.' :: r.takeWhile Char.isDigit, _, ?_, .point ha hb ?_, he⟩
      · simp [hr]
      · exact not_and_or.1 hne
    | case2 =>
      intro he hne
      exact ⟨a, r, rfl, .whole ⟨fun h => hne ⟨h, rfl⟩, ha⟩, he⟩
  · rintro ⟨m, e, rfl, hm, he⟩
    cases hm with
    | whole hd =>
      obtain ⟨ht, hr⟩ := cut_whole hd.2 he
      rw [ht, hr]
      exact ⟨he, fun h => hd.1 h.1⟩
    | @point a b ha hb hab =>
      obtain ⟨ht, hr⟩ := cut_point ha hb he
      rw [ht, hr]
      exact ⟨he, fun h => hab.elim (absurd h.1) (absurd h.2)⟩

theorem magnitude_iff {cs : List Char} :
    Magnitude cs ↔
      cs.map Char.toLower ∈ specialWords ∨ ∃ m e, cs = m ++ e ∧ Mantissa m ∧ Exponent e := by
  constructor
  · rintro (⟨hm, he⟩ | hw)
    · exact .inr ⟨_, _, rfl, hm, he⟩
    · exact .inl hw
  · rintro (hw | ⟨m, e, rfl, hm, he⟩)
    · exact .special hw
    · exact .decimal hm he

/-- A digit or a point starts a mantissa. -/
theorem head_of_mantissa {m : List Char} (h : Mantissa m) :
    ∃ c cs, m = c :: cs ∧ (c.isDigit ∨ c = '.') := by
  cases h with
  | whole hd =>
    obtain ⟨c, cs, rfl⟩ := List.exists_cons_of_ne_nil hd.1
    exact ⟨c, cs, rfl, .inl (hd.2 c List.mem_cons_self)⟩
  | @point a b ha _ _ =>
    cases a with
    | nil => exact ⟨'.', b, rfl, .inr rfl⟩
    | cons c a => exact ⟨c, a ++ '.' :: b, rfl, .inl (ha c List.mem_cons_self)⟩

/-- No sign starts a number without a sign. -/
theorem head_of_magnitude {c : Char} {cs : List Char} (h : Magnitude (c :: cs)) :
    c ≠ '-' ∧ c ≠ '+' := by
  rcases magnitude_iff.1 h with hw | ⟨m, e, hme, hm, -⟩
  · constructor <;> rintro rfl <;> simp [specialWords] at hw
  · obtain ⟨d, ds, rfl, hd⟩ := head_of_mantissa hm
    obtain ⟨rfl, -⟩ := List.cons.inj hme
    constructor <;> rintro rfl <;> revert hd <;> decide

theorem literal?_of_splitSign {cs body : List Char} {negative : Bool}
    (h : splitSign cs = (negative, body)) : (literal? cs).isSome ↔ Magnitude body := by
  simp only [literal?, h, magnitude_iff, specialWords, List.mem_cons, List.not_mem_nil, or_false]
  split
  · rename_i hw
    simp only [Option.isSome_some, true_iff]
    exact .inl (hw.elim .inl fun hw => .inr (.inl hw))
  · split
    · rename_i hw
      simp only [Option.isSome_some, true_iff]
      exact .inl (.inr (.inr hw))
    · rename_i h1 h2
      rw [unsigned?_isSome]
      exact ⟨.inr, fun h => h.resolve_left fun hw => by tauto⟩

/-- The reader of singles accepts the notations of floating-point numbers. -/
theorem literal?_isSome {cs : List Char} : (literal? cs).isSome ↔ Floating cs := by
  constructor
  · intro h
    rcases splitSign_cases cs with ⟨ds, rfl, hs⟩ | ⟨ds, rfl, hs⟩ | ⟨hs, -, -⟩ <;>
      have hm := (literal?_of_splitSign hs).1 h
    · exact .minus hm
    · exact .plus hm
    · exact .plain hm
  · intro h
    cases h with
    | minus hm => exact (literal?_of_splitSign rfl).2 hm
    | plus hm => exact (literal?_of_splitSign rfl).2 hm
    | plain hm =>
      rcases splitSign_cases cs with ⟨ds, rfl, -⟩ | ⟨ds, rfl, -⟩ | ⟨hs, -, -⟩
      · exact absurd rfl (head_of_magnitude hm).1
      · exact absurd rfl (head_of_magnitude hm).2
      · exact (literal?_of_splitSign hs).2 hm

theorem read?_isSome {s : String} :
    (read? s).isSome ↔ Floating (Text.strip Text.isBlank s.toList) := literal?_isSome

end Single

end Number

/-! ### Words of a vocabulary -/

namespace Text

/-- A word has the meaning that the vocabulary gives to it in lower case. -/
theorem keyword?_eq_some {α : Type} {v : List (String × α)} (hv : (v.map (·.1)).Nodup) {w : String}
    {a : α} : keyword? v w = some a ↔ (lower w, a) ∈ v := by
  unfold keyword?
  induction v with
  | nil => simp
  | cons e v ih =>
    rw [List.map_cons, List.nodup_cons] at hv
    by_cases he : e.1 = lower w
    · have hnot : (lower w, a) ∉ v := fun h => hv.1 (he ▸ List.mem_map_of_mem (f := (·.1)) h)
      simp only [List.find?_cons, he, BEq.rfl, Option.map_some, Option.some.injEq, List.mem_cons,
        hnot, or_false]
      constructor
      · rintro rfl
        rw [← he]
      · intro h
        rw [← h]
    · simp only [List.find?_cons, beq_eq_false_iff_ne.2 he, ih hv.2, List.mem_cons]
      constructor
      · exact .inr
      · rintro (rfl | h)
        · exact absurd rfl he
        · exact h

theorem keyword?_isSome {α : Type} {v : List (String × α)} {w : String} :
    (keyword? v w).isSome ↔ lower w ∈ v.map (·.1) := by
  simp [keyword?, List.mem_map]

end Text

theorem Kind.read?_eq_some {w : String} {k : Kind} :
    Kind.read? w = some k ↔ Text.lower w = k.name := by
  rw [Kind.read?, Text.keyword?_eq_some (by decide)]
  cases k <;> simp [Kind.name]

theorem Modification.read?_eq_some {w : String} {m : Modification} :
    Modification.read? w = some m ↔ Text.lower w = m.name := by
  rw [Modification.read?, Text.keyword?_eq_some (by decide)]
  cases m <;> simp [Modification.name]

theorem Slot.read?_eq_some {w : String} {s : Slot} :
    Slot.read? w = some s ↔ Text.lower w = Text.lower s.name := by
  have hadd : Text.lower "OnAdd" = "onadd" := by decide
  have hsubtract : Text.lower "OnSubtract" = "onsubtract" := by decide
  rw [Slot.read?, Text.keyword?_eq_some (by decide)]
  cases s <;> simp [Slot.name, hadd, hsubtract]

/-! ### Values and keys -/

/-- A field is a value of a kind, as far as its text tells. -/
def Value.Literal : Kind → String → Prop
  | .float, field => Number.Floating (Text.strip Text.isBlank field.toList)
  | .int, field => ∃ w, Number.Word.Written field w
  | .bool, field => Text.lower field = "true" ∨ Text.lower field = "false"

/-- The reader of values accepts the literals of the kind. -/
theorem Value.read?_isSome {k : Kind} {field : String} :
    (Value.read? k field).isSome ↔ Value.Literal k field := by
  cases k with
  | float =>
    rw [Value.read?, Option.isSome_map]
    exact Number.Single.read?_isSome
  | int =>
    rw [Value.read?, Option.isSome_map, Option.isSome_iff_exists]
    simp only [Number.Word.read?_eq_some, Value.Literal]
  | bool =>
    rw [Value.read?, Option.isSome_map, Value.readBool?, Text.keyword?_isSome]
    simp [Value.Literal]

/-- A word names a key, by one of its names or by its code. -/
def Key.Written (w : String) (k : Key) : Prop := (w, k) ∈ Key.names ∨ Number.Numeral w.toList k.code

theorem Key.ofCode?_eq_some {n : Int} {k : Key} : Key.ofCode? n = some k ↔ n = k.code := by
  unfold Key.ofCode?
  obtain ⟨c, hc⟩ := k
  split
  · simp [Fin.ext_iff]
    omega
  · simp
    omega

/-- The reader of keys accepts the words that name a key. -/
theorem Key.read?_isSome {w : String} : (Key.read? w).isSome ↔ ∃ k, Key.Written w k := by
  have hname : (Key.ofName? w).isSome ↔ ∃ k, (w, k) ∈ Key.names := by
    rw [Key.ofName?, Option.isSome_map, List.find?_isSome]
    constructor
    · rintro ⟨⟨name, k⟩, hmem, hw⟩
      rw [beq_iff_eq] at hw
      exact ⟨k, hw ▸ hmem⟩
    · rintro ⟨k, hk⟩
      exact ⟨(w, k), hk, beq_self_eq_true w⟩
  have hcode : (Number.integer? w.toList >>= Key.ofCode?).isSome ↔
      ∃ k : Key, Number.Numeral w.toList k.code := by
    rw [Option.isSome_iff_exists]
    refine exists_congr fun k => ?_
    simp only [Option.bind_eq_bind, Option.bind_eq_some_iff, Number.integer?_eq_some,
      Key.ofCode?_eq_some, exists_eq_right]
  unfold Key.read?
  simp only [Option.orElse_eq_orElse, Option.orElse_eq_or, Option.isSome_or, Bool.or_eq_true, hname,
    hcode, Key.Written, exists_or]

end ShaderFilter
