import ShaderFilter.Directive.Reading
import ShaderFilter.Proofs.Number.Digits
import ShaderFilter.Proofs.Text.Fields

/-!
# Fields with integers

Two readers take integers from fields: one for the values of parameters, one for the locations and
bindings of the shader interface. They differ in the error that they give, not in what they accept.
Either takes the blanks around the field off and reads what is left, and since no notation of an
integer starts or ends with a blank, this accepts exactly the notations with any blanks around them
(`integerField_iff`). The number is read in full before it is compared with the range of words, so
a long notation never turns into another number.
-/

namespace ShaderFilter

namespace Text

/-- The blanks stand before and behind the characters that numbers are written with. -/
theorem bounds_of_isBlank {c : Char} (h : isBlank c) : c.toNat ≤ 32 ∨ 133 ≤ c.toNat := by
  simp only [isBlank, Bool.or_eq_true, Bool.and_eq_true, decide_eq_true_eq, beq_iff_eq,
    Char.le_def, UInt32.le_iff_toNat_le, or_assoc] at h
  rcases h with ⟨-, h⟩ | rfl | rfl | rfl | rfl | ⟨h, -⟩ | rfl | rfl | rfl | rfl | rfl
  case inl => exact .inl (Nat.le_trans h (by decide))
  case inr.inr.inr.inr.inr.inl => exact .inr (Nat.le_trans (by decide) h)
  all_goals decide

end Text

namespace Number

theorem bounds_of_numberChar {c : Char} (h : NumberChar c) : 32 < c.toNat ∧ c.toNat < 133 := by
  rcases h with h | h
  · simp only [Char.isDigit, Bool.and_eq_true, decide_eq_true_eq] at h
    exact ⟨Nat.lt_of_lt_of_le (by decide) h.1, Nat.lt_of_le_of_lt h.2 (by decide)⟩
  · simp only [List.mem_cons, List.not_mem_nil, or_false] at h
    rcases h with rfl | rfl | rfl | rfl | rfl <;> decide

theorem not_isBlank_of_numberChar {c : Char} (h : NumberChar c) : Text.isBlank c = false := by
  rw [Bool.eq_false_iff]
  intro hblank
  have hb := Text.bounds_of_isBlank hblank
  have hn := bounds_of_numberChar h
  omega

end Number

/-- A field holds an integer: a decimal notation of it, with any blanks around it. -/
def IntegerField (field : String) (n : Int) : Prop :=
  ∃ front cs back, field.toList = front ++ cs ++ back ∧ (∀ c ∈ front, Text.isBlank c) ∧
    (∀ c ∈ back, Text.isBlank c) ∧ Number.Numeral cs n

/-- The blanks around a notation are those that are stripped. -/
theorem integerField_iff {field : String} {n : Int} :
    IntegerField field n ↔ Number.Numeral (Text.strip Text.isBlank field.toList) n := by
  constructor
  · rintro ⟨front, cs, back, hfield, hf, hb, hn⟩
    have hnone : ∀ c ∈ cs, Text.isBlank c = false := fun c hc =>
      Number.not_isBlank_of_numberChar (hn.numberChar c hc)
    rw [hfield, Text.strip_append hf hb, Text.strip_eq_self]
    · exact hn
    · exact fun c hc => hnone c (List.mem_of_mem_head? hc)
    · exact fun c hc => hnone c (List.mem_of_mem_getLast? hc)
  · intro h
    obtain ⟨front, back, hfield, hf, hb⟩ := Text.exists_strip Text.isBlank field.toList
    exact ⟨front, _, back, hfield, hf, hb, h⟩

namespace IntegerField

open Number (Word)

variable {field : String} {n : Int}

theorem unique {m : Int} (hm : IntegerField field m) (hn : IntegerField field n) : m = n :=
  (integerField_iff.1 hm).unique (integerField_iff.1 hn)

theorem text (n : Int) : IntegerField (Number.integerText n) n :=
  ⟨[], _, [], by simp, nofun, nofun, Number.numeral_integerText n⟩

/-- Both readers read a field as a word exactly where the field holds it. -/
theorem iff_read? {w : Word} : IntegerField field w.val ↔ Word.read? field = some w := by
  rw [Word.read?_eq_some, Word.Written, integerField_iff]

/-- No word is read where the field holds no integer of 32 bits. -/
theorem read?_eq_none :
    Word.read? field = none ↔
      ∀ n, IntegerField field n → ¬ (-2147483648 ≤ n ∧ n ≤ 2147483647) := by
  simp only [Option.eq_none_iff_forall_ne_some, ne_eq, ← iff_read?]
  constructor
  · exact fun h n hn hrange => h ⟨n, hrange.1, hrange.2⟩ hn
  · exact fun h w hw => h w.val hw ⟨w.least_le, w.le_greatest⟩

/-- The text of an integer holds a word exactly within the limits. -/
theorem exists_word_iff :
    (∃ w : Word, IntegerField (Number.integerText n) w.val) ↔
      -2147483648 ≤ n ∧ n ≤ 2147483647 := by
  constructor
  · rintro ⟨w, hw⟩
    rw [← hw.unique (.text n)]
    exact ⟨w.least_le, w.le_greatest⟩
  · exact fun ⟨hl, hg⟩ => ⟨⟨n, hl, hg⟩, .text n⟩

end IntegerField

open Number (Word integerText) in
/-- **One grammar of integers, whichever reader reads the field.** The values of parameters and the
locations and bindings are read alike: a field is accepted as a word exactly where it holds this
integer, that is, blanks around at most one sign and decimal digits. It is refused, with an error
that shows all of it, exactly where it holds no integer of 32 bits, however long it is. A field
holds at most one integer, so nothing wraps around. The text of a value reads back as the value, and
the text of any integer is accepted within the limits, the limits included, and not beyond them. -/
theorem integer_fields_one_grammar (field : String) (place : IndexField) :
    (∀ w : Word, (readScalar field = .ok w ↔ IntegerField field w.val) ∧
      (readIndex place field = .ok w ↔ IntegerField field w.val)) ∧
    (∀ e, (readScalar field = (.error e : Except DirectiveError Word) ↔
        (∀ n, IntegerField field n → ¬ (-2147483648 ≤ n ∧ n ≤ 2147483647)) ∧
          e = .conversion .int field) ∧
      (readIndex place field = .error e ↔
        (∀ n, IntegerField field n → ¬ (-2147483648 ≤ n ∧ n ≤ 2147483647)) ∧
          e = .notANumber place field)) ∧
    readValue .int field = Value.int <$> readScalar field ∧
    (∀ m n, IntegerField field m → IntegerField field n → m = n) ∧
    (∀ w : Word, readScalar (Value.int w).text = .ok w ∧
      readIndex place (Value.int w).text = .ok w) ∧
    ∀ n, ((∃ w : Word, readScalar (integerText n) = .ok w) ↔
        -2147483648 ≤ n ∧ n ≤ 2147483647) ∧
      ((∃ w, readIndex place (integerText n) = .ok w) ↔
        -2147483648 ≤ n ∧ n ≤ 2147483647) := by
  have hscalar {s : String} {w : Word} : readScalar s = .ok w ↔ IntegerField s w.val :=
    orError_eq_ok.trans IntegerField.iff_read?.symm
  have hindex {s : String} {w : Word} : readIndex place s = .ok w ↔ IntegerField s w.val :=
    orError_eq_ok.trans IntegerField.iff_read?.symm
  refine ⟨fun w => ⟨hscalar, hindex⟩, fun e => ⟨?_, ?_⟩, ?_, fun m n => IntegerField.unique,
    fun w => ⟨hscalar.2 (.text w.val), hindex.2 (.text w.val)⟩, fun n => ⟨?_, ?_⟩⟩
  · rw [readScalar, orError_eq_error]
    exact and_congr_left fun _ => IntegerField.read?_eq_none
  · rw [readIndex, orError_eq_error]
    exact and_congr_left fun _ => IntegerField.read?_eq_none
  · change orError ((Word.read? field).map Value.int) _ = _ <$> orError (Word.read? field) _
    cases Word.read? field <;> rfl
  · simp only [hscalar, IntegerField.exists_word_iff]
  · simp only [hindex, IntegerField.exists_word_iff]

end ShaderFilter
