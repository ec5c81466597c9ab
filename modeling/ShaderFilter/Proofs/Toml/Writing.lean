import ShaderFilter.Config
import ShaderFilter.Text.Quoted
import Mathlib.Data.List.Nodup

/-!
# Documents, written and read back

A writer of TOML beside the reader: names, dotted keys, strings, truth values, arrays and lines
(`WritesName`, `WritesKey`, `Writes`, `WritesLine`). What is written by it is read back, whatever comes
after it that cannot belong to it: `run_lineString` for strings, `WritesKey.run` for keys, `Writes.run`
for values, by induction on how they are written.

A reader that repeats another one has no length of its own: `Takes` is what such a repetition takes, as
a relation, and `Takes.run_many` says that the bound of the repetition is never reached.

The main results are `read?_document`, that a written document has the table of its lines,
`Value.ofItems?_eq_some_iff`, that a table has every key once, and `Config.read?_document`, that every
configuration can be written and is read back.
-/

namespace ShaderFilter.Toml

open ShaderFilter.Text (hexDigit)

namespace Reader

variable {α : Type} {cs ds rest : List Char} {s : String} {names : List String}

/-! ### Single steps -/

theorem run_peek : peek.run cs = some (cs.head?, cs) := rfl

theorem run_next (c : Char) : next.run (c :: cs) = some (c, cs) := rfl

theorem run_takeAll (p : Char → Bool) :
    (takeAll p).run cs = some (cs.takeWhile p, cs.dropWhile p) := rfl

theorem run_gap : gap.run cs = some ((), cs.dropWhile isGap) := rfl

theorem run_discard {r : Reader α} {a : α} (h : r.run cs = some (a, rest)) :
    (discard r).run cs = some ((), rest) := by
  rw [discard, map_const, Function.comp_apply, StateT.run_map, h]
  rfl

theorem run_accept (h : s.toList ++ rest = cs) : (accept s).run cs = some (true, rest) := by
  have hprefix : s.toList.isPrefixOf? cs = some rest :=
    List.isPrefixOf?_eq_some_iff_append_eq.2 h
  simp [accept, hprefix]

theorem run_accept_of_not_prefix (h : ¬ s.toList <+: cs) : (accept s).run cs = some (false, cs) := by
  have hnone : s.toList.isPrefixOf? cs = none :=
    Option.eq_none_iff_forall_not_mem.2 fun r hr =>
      h ⟨r, List.isPrefixOf?_eq_some_iff_append_eq.1 hr⟩
  simp [accept, hnone]

/-- A text whose first character is another one is not accepted. -/
theorem run_accept_of_head {c : Char} (hs : s.toList.head? = some c) (h : cs.head? ≠ some c) :
    (accept s).run cs = some (false, cs) := by
  refine run_accept_of_not_prefix fun ⟨r, hr⟩ => h ?_
  rw [← hr, List.head?_append, hs, Option.some_or]

/-- A text does not start with a character outside of the class of its first character. -/
theorem head?_ne {p : Char → Bool} {c : Char} (hc : cs.head? = some c) (hp : p c) (d : Char)
    (hd : p d = false) : cs.head? ≠ some d := by
  rintro h
  rw [hc, Option.some.injEq] at h
  rw [← h, hp] at hd
  exact Bool.noConfusion hd

theorem head?_append_of_head? {c : Char} (hc : cs.head? = some c) : (cs ++ rest).head? = some c := by
  rw [List.head?_append, hc, Option.some_or]

theorem run_expect (h : s.toList ++ rest = cs) : (expect s).run cs = some ((), rest) := by
  simp [expect, run_accept h]

/-! ### Repetitions -/

/-- Repeated on the text, `r` takes some items, each of at least a character, and leaves a rest. -/
inductive Takes (r : Reader (Option α)) : List Char → List α → List Char → Prop where
  /-- Nothing more is there. -/
  | stop {cs rest : List Char} : r.run cs = some (none, rest) → Takes r cs [] rest
  /-- An item, and more of them. -/
  | more {cs ds rest : List Char} {a : α} {as : List α} : r.run cs = some (some a, ds) →
      ds.length < cs.length → Takes r ds as rest → Takes r cs (a :: as) rest

variable {r : Reader (Option α)} {a : α} {as : List α}

theorem Takes.run_repeatUpTo (h : Takes r cs as rest) {n : Nat} (hn : cs.length < n) :
    (repeatUpTo r n).run cs = some (as, rest) := by
  induction h generalizing n with
  | stop hr =>
    obtain ⟨n, rfl⟩ := Nat.exists_eq_add_one_of_ne_zero (Nat.ne_zero_of_lt hn)
    simp [repeatUpTo, hr]
  | more hr hlt _ ih =>
    obtain ⟨n, rfl⟩ := Nat.exists_eq_add_one_of_ne_zero (Nat.ne_zero_of_lt hn)
    simp [repeatUpTo, hr, ih (show _ < n by omega)]

/-- What is taken one by one is what the repetition gives. -/
theorem Takes.run_many (h : Takes r cs as rest) : (many r).run cs = some (as, rest) := by
  simp [many, h.run_repeatUpTo (Nat.lt_succ_self cs.length)]

/-- Pieces of text that are taken whatever comes after them are taken one by one. -/
theorem Takes.pieces (ps : List (List Char × α)) (hstop : r.run cs = some (none, rest))
    (hpiece : ∀ p ∈ ps, p.1 ≠ [] ∧ ∀ cs, r.run (p.1 ++ cs) = some (some p.2, cs)) :
    Takes r (ps.flatMap (·.1) ++ cs) (ps.map (·.2)) rest := by
  induction ps with
  | nil => exact .stop hstop
  | cons p ps ih =>
    obtain ⟨hne, hrun⟩ := hpiece p List.mem_cons_self
    rw [List.flatMap_cons, List.append_assoc, List.map_cons]
    refine .more (hrun _) ?_ (ih fun q hq => hpiece q (List.mem_cons_of_mem p hq))
    have := List.length_pos_of_ne_nil hne
    simp only [List.length_append]
    omega

/-! ### Blanks -/

/-- A text that starts with no blank, no comment and no line end. -/
def Starts (cs : List Char) : Prop :=
  ∀ c ∈ cs.head?, isGap c = false ∧ c ≠ '#' ∧ c ≠ '\n' ∧ c ≠ '\r'

theorem dropWhile_of_head {p : Char → Bool} (h : ∀ c ∈ cs.head?, p c = false) :
    cs.dropWhile p = cs := by
  cases cs with
  | nil => rfl
  | cons c cs => simp [h c rfl]

theorem takeWhile_of_head {p : Char → Bool} (h : ∀ c ∈ cs.head?, p c = false) :
    cs.takeWhile p = [] := by
  cases cs with
  | nil => rfl
  | cons c cs => simp [h c rfl]

/-- A character that a name may start with. -/
def isNameStart (c : Char) : Bool := c == '"' || isKeyChar c

/-- A character that a line or a value may start with. -/
def isStart (c : Char) : Bool := c == '[' || isNameStart c

theorem isStart_of_isNameStart {c : Char} (h : isNameStart c) : isStart c := by simp [isStart, h]

/-- No line and no value starts with a blank, a comment or a line end. -/
theorem Starts.of_isStart {c : Char} (hc : cs.head? = some c) (hstart : isStart c) :
    Starts (cs ++ rest) := by
  have hhead : (cs ++ rest).head? = some c := head?_append_of_head? hc
  intro d hd
  have hne : ∀ e, isStart e = false → d ≠ e := by
    rintro e he rfl
    exact head?_ne hhead hstart d he hd
  simp [isGap, hne ' ' rfl, hne '\t' rfl, hne '#' rfl, hne '\n' rfl, hne '\r' rfl]

theorem Starts.dropWhile_isGap (h : Starts cs) : cs.dropWhile isGap = cs :=
  dropWhile_of_head fun c hc => (h c hc).1

theorem Starts.run_space (h : Starts cs) : space.run cs = some ((), cs) := by
  have hhash : cs.head? ≠ some '#' := fun hc => (h _ hc).2.1 rfl
  have hfeed : cs.head? ≠ some '\n' := fun hc => (h _ hc).2.2.1 rfl
  have hreturn : cs.head? ≠ some '\r' := fun hc => (h _ hc).2.2.2 rfl
  have hpiece : spacePiece.run cs = some (none, cs) := by
    simp [spacePiece, newline, comment, run_takeAll, takeWhile_of_head fun c hc => (h c hc).1,
      dropWhile_of_head fun c hc => (h c hc).1, run_accept_of_head (s := "#") rfl hhash,
      run_accept_of_head (s := "\n") rfl hfeed, run_accept_of_head (s := "\r\n") rfl hreturn]
  exact run_discard (Takes.stop hpiece).run_many

/-! ### Strings -/

/-- A character of a string in double quotes. -/
def escaped (c : Char) : List Char :=
  if c = '"' then ['\\', '"']
  else if c = '\\' then ['\\', '\\']
  else if isTextChar c then [c]
  else ['\\', 'u', '0', '0', hexDigit (c.toNat / 16), hexDigit (c.toNat % 16)]

/-- A string in double quotes. -/
def quoted (s : String) : List Char := '"' :: (s.toList.flatMap escaped ++ ['"'])

theorem hexValue?_hexDigit : ∀ n < 16, hexValue? (hexDigit n) = some n := by decide

/-- Only characters of ASCII need an escape. -/
theorem toNat_lt_of_not_isTextChar {c : Char} (h : isTextChar c = false) : c.toNat < 128 := by
  simp only [isTextChar, Bool.or_eq_false_iff, Bool.and_eq_false_iff, decide_eq_false_iff_not,
    bne_eq_false_iff_eq] at h
  obtain ⟨-, hcontrol | rfl⟩ := h
  · have hlt : c < ' ' := Char.not_le.1 hcontrol
    exact Nat.lt_trans hlt (by decide)
  · decide

theorem run_codePoint (c : Char) (h : c.toNat < 128) :
    (codePoint 4).run ('0' :: '0' :: hexDigit (c.toNat / 16) :: hexDigit (c.toNat % 16) :: rest) =
      some (c, rest) := by
  have hhigh := hexValue?_hexDigit (c.toNat / 16) (by omega)
  have hlow := hexValue?_hexDigit (c.toNat % 16) (by omega)
  have hcode : 16 * (c.toNat / 16) + c.toNat % 16 = c.toNat := Nat.div_add_mod _ _
  have hvalid : c.toNat.isValidChar := c.valid
  have hzero : hexValue? '0' = some 0 := by decide
  simp [codePoint, hexDigits, run_next, hhigh, hlow, hcode, hvalid, hzero]

theorem run_lineChar_escaped (c : Char) :
    (lineChar '"' false).run (escaped c ++ rest) = some (some c, rest) := by
  unfold escaped
  split_ifs with hquote hslash htext
  · simp [lineChar, escape, run_next, hquote]
  · simp [lineChar, escape, run_next, hslash]
  · simp [lineChar, run_next, hquote, hslash, htext]
  · have hlt := toNat_lt_of_not_isTextChar (Bool.eq_false_iff.2 htext)
    simp [lineChar, escape, run_next, run_codePoint c hlt]

/-- A string is read up to its closing quote. -/
theorem run_lineString (s : String) :
    (lineString '"' false).run (s.toList.flatMap escaped ++ '"' :: rest) = some (s, rest) := by
  have hstop : (lineChar '"' false).run ('"' :: rest) = some (none, rest) := by
    simp [lineChar, run_next]
  have htakes : Takes (lineChar '"' false) (s.toList.flatMap escaped ++ '"' :: rest) s.toList rest := by
    simpa [List.flatMap_map, Function.comp_def] using
      Takes.pieces (s.toList.map fun c => (escaped c, c)) hstop (by
        intro p hp
        obtain ⟨c, -, rfl⟩ := List.mem_map.1 hp
        refine ⟨?_, fun _ => run_lineChar_escaped c⟩
        unfold escaped
        split_ifs <;> simp)
  simp [lineString, htakes.run_many]

/-! ### Keys -/

/-- The ways to write a name. -/
inductive WritesName : List Char → String → Prop where
  /-- Without quotes, if it is not empty and its characters allow it. -/
  | bare {s : String} : s.toList ≠ [] → (∀ c ∈ s.toList, isKeyChar c) → WritesName s.toList s
  /-- As a string. -/
  | string (s : String) : WritesName (quoted s) s

/-- The ways to write the names of a dotted key. -/
inductive WritesKey : List Char → List String → Prop where
  /-- One name. -/
  | name {cs : List Char} {s : String} : WritesName cs s → WritesKey cs [s]
  /-- A name, a dot, and more names. -/
  | dot {cs ds : List Char} {s : String} {names : List String} : WritesName cs s →
      WritesKey ds names → WritesKey (cs ++ '.' :: ds) (s :: names)

theorem WritesName.head (h : WritesName cs s) : ∃ c, cs.head? = some c ∧ isNameStart c := by
  cases h with
  | bare hne hall =>
    obtain ⟨c, ds, hs⟩ := List.exists_cons_of_ne_nil hne
    exact ⟨c, by simp [hs], by simp [isNameStart, hall c (by simp [hs])]⟩
  | string => exact ⟨'"', rfl, rfl⟩

/-- A name is read up to a character that is not part of names. -/
theorem WritesName.run (h : WritesName cs s) (hrest : ∀ c ∈ rest.head?, isKeyChar c = false) :
    name.run (cs ++ rest) = some (s, rest) := by
  cases h with
  | string =>
    have hopen : (accept "\"").run (quoted s ++ rest) =
        some (true, s.toList.flatMap escaped ++ '"' :: rest) := run_accept (by simp [quoted])
    simp [name, hopen, run_lineString]
  | bare hne hall =>
    obtain ⟨c, ds, hs⟩ := List.exists_cons_of_ne_nil hne
    have hhead : (s.toList ++ rest).head? = some c := by simp [hs]
    have hc : isKeyChar c := hall c (by simp [hs])
    simp [name, run_accept_of_head (s := "\"") rfl (head?_ne hhead hc '"' rfl),
      run_accept_of_head (s := "'") rfl (head?_ne hhead hc '\'' rfl), run_takeAll,
      List.takeWhile_append_of_pos hall, List.dropWhile_append_of_pos hall,
      takeWhile_of_head hrest, dropWhile_of_head hrest, hne]

theorem WritesKey.head (h : WritesKey cs names) : ∃ c, cs.head? = some c ∧ isNameStart c := by
  cases h with
  | name h => exact h.head
  | dot h _ =>
    obtain ⟨c, hc, hstart⟩ := h.head
    exact ⟨c, head?_append_of_head? hc, hstart⟩

/-- Where the names of a key end: no character of a name is next, nor, behind blanks, a dot. -/
def EndsKey (rest : List Char) : Prop :=
  (∀ c ∈ rest.head?, isKeyChar c = false) ∧ (rest.dropWhile isGap).head? ≠ some '.'

/-- After a dot, a name is read with the blanks after it. -/
theorem WritesName.run_nextName (h : WritesName cs s)
    (hrest : ∀ c ∈ rest.head?, isKeyChar c = false) :
    nextName.run ('.' :: (cs ++ rest)) = some (some s, rest.dropWhile isGap) := by
  obtain ⟨c, hc, hstart⟩ := h.head
  have hdot : (accept ".").run ('.' :: (cs ++ rest)) = some (true, cs ++ rest) := run_accept rfl
  have hstarts : Starts (cs ++ rest) := .of_isStart hc (isStart_of_isNameStart hstart)
  simp [nextName, hdot, run_gap, hstarts.dropWhile_isGap, h.run hrest]

/-- A key is a name, and behind blanks the other names are taken one by one. -/
theorem WritesKey.split (h : WritesKey cs names) (hrest : EndsKey rest) :
    ∃ ds es s others, cs = ds ++ es ∧ names = s :: others ∧ WritesName ds s ∧
      (∀ c ∈ (es ++ rest).head?, isKeyChar c = false) ∧
      Takes nextName ((es ++ rest).dropWhile isGap) others (rest.dropWhile isGap) := by
  induction h with
  | @name cs s h =>
    have hstop : nextName.run (rest.dropWhile isGap) = some (none, rest.dropWhile isGap) := by
      simp [nextName, run_accept_of_head (s := ".") rfl hrest.2]
    exact ⟨cs, [], s, [], by simp, rfl, h, hrest.1, .stop hstop⟩
  | @dot cs ds s names h _ ih =>
    obtain ⟨ds, es, t, others, rfl, rfl, hname, hends, htakes⟩ := ih
    refine ⟨cs, '.' :: (ds ++ es), s, t :: others, rfl, rfl, h, by simp; decide, ?_⟩
    rw [List.cons_append, List.append_assoc, dropWhile_of_head (by simp; decide)]
    refine .more (hname.run_nextName hends) ?_ htakes
    have := (List.dropWhile_sublist (l := es ++ rest) isGap).length_le
    simp only [List.length_cons, List.length_append] at this ⊢
    omega

/-- A key is read with the blanks after it. -/
theorem WritesKey.run (h : WritesKey cs names) (hlimit : names.length < depthLimit)
    (hrest : EndsKey rest) : key.run (cs ++ rest) = some (names, rest.dropWhile isGap) := by
  obtain ⟨c, hc, hstart⟩ := h.head
  have hstarts : Starts (cs ++ rest) := .of_isStart hc (isStart_of_isNameStart hstart)
  obtain ⟨ds, es, s, others, rfl, rfl, hname, hends, htakes⟩ := h.split hrest
  rw [List.length_cons] at hlimit
  have hnot : ¬ depthLimit ≤ others.length + 1 := by omega
  rw [List.append_assoc] at hstarts ⊢
  simp [key, run_gap, hstarts.dropWhile_isGap, hname.run hends, htakes.run_many, hnot]

/-! ### Values -/

/-- The ways to write a value that lies at most `n` arrays deep. -/
inductive Writes : Nat → List Char → Value → Prop where
  /-- A string. -/
  | string {n : Nat} (s : String) : Writes n (quoted s) (.string s)
  /-- A truth value. -/
  | bool {n : Nat} (b : Bool) : Writes n (if b then "true" else "false").toList (.bool b)
  /-- An array, with a comma after each item. -/
  | array {n : Nat} (items : List (List Char × Value)) : (∀ i ∈ items, Writes n i.1 i.2) →
      Writes (n + 1) ('[' :: (items.flatMap (fun i => i.1 ++ [',']) ++ [']']))
        (.array (items.map (·.2)))

variable {n m : Nat} {v : Value}

theorem Writes.head (h : Writes n cs v) : ∃ c, cs.head? = some c ∧ isStart c := by
  cases h with
  | string => exact ⟨'"', rfl, rfl⟩
  | bool b => cases b <;> exact ⟨_, rfl, rfl⟩
  | array => exact ⟨'[', rfl, rfl⟩

theorem run_string?_quoted (hrest : rest.head? ≠ some '"') :
    string?.run (quoted s ++ rest) = some (some s, rest) := by
  have hopen : quoted s ++ rest = '"' :: (s.toList.flatMap escaped ++ '"' :: rest) := by simp [quoted]
  -- the character after the opening quote is no quote, or else it closes the string
  have hblock : ¬ "\"\"\"".toList <+: '"' :: (s.toList.flatMap escaped ++ '"' :: rest) := by
    cases s.toList with
    | nil =>
      cases rest with
      | nil => simp
      | cons c cs => simpa [eq_comm] using hrest
    | cons c cs =>
      rw [List.flatMap_cons, escaped]
      split_ifs with hquote <;> simp [eq_comm]
      exact fun h => absurd h hquote
  have hdouble : (accept "\"").run ('"' :: (s.toList.flatMap escaped ++ '"' :: rest)) =
      some (true, s.toList.flatMap escaped ++ '"' :: rest) := run_accept rfl
  have hraw : (accept "'''").run ('"' :: (s.toList.flatMap escaped ++ '"' :: rest)) =
      some (false, '"' :: (s.toList.flatMap escaped ++ '"' :: rest)) :=
    run_accept_of_head (c := '\'') rfl (by simp)
  rw [hopen]
  simp [string?, run_accept_of_not_prefix hblock, hraw, hdouble, run_lineString]

theorem run_string?_of_head (hdouble : cs.head? ≠ some '"') (hsingle : cs.head? ≠ some '\'') :
    string?.run cs = some (none, cs) := by
  simp [string?, run_accept_of_head (s := "\"\"\"") rfl hdouble,
    run_accept_of_head (s := "'''") rfl hsingle, run_accept_of_head (s := "\"") rfl hdouble,
    run_accept_of_head (s := "'") rfl hsingle]

/-- What starts with no bracket is neither an array nor a table. -/
theorem run_value_of_head (hbracket : cs.head? ≠ some '[') (hbrace : cs.head? ≠ some '\x7b') :
    (value m).run cs = simpleValue.run cs := by
  cases m with
  | zero => rfl
  | succ m =>
    simp [value, run_accept_of_head (s := "[") rfl hbracket,
      run_accept_of_head (s := "\x7b") rfl hbrace]

theorem run_simpleValue_bool (b : Bool) :
    simpleValue.run ((if b then "true" else "false").toList ++ rest) = some (.bool b, rest) := by
  cases b with
  | true =>
    have hstring : string?.run ('t' :: 'r' :: 'u' :: 'e' :: rest) =
        some (none, 't' :: 'r' :: 'u' :: 'e' :: rest) := run_string?_of_head (by simp) (by simp)
    have htrue : (accept "true").run ('t' :: 'r' :: 'u' :: 'e' :: rest) = some (true, rest) :=
      run_accept rfl
    simp [simpleValue, hstring, htrue]
  | false =>
    have hstring : string?.run ('f' :: 'a' :: 'l' :: 's' :: 'e' :: rest) =
        some (none, 'f' :: 'a' :: 'l' :: 's' :: 'e' :: rest) := run_string?_of_head (by simp) (by simp)
    have htrue : (accept "true").run ('f' :: 'a' :: 'l' :: 's' :: 'e' :: rest) =
        some (false, 'f' :: 'a' :: 'l' :: 's' :: 'e' :: rest) :=
      run_accept_of_head (c := 't') rfl (by simp)
    have hfalse : (accept "false").run ('f' :: 'a' :: 'l' :: 's' :: 'e' :: rest) = some (true, rest) :=
      run_accept rfl
    simp [simpleValue, hstring, htrue, hfalse]

/-- An item of an array is read with the comma after it. -/
theorem Writes.run_arrayItem {r : Reader Value} (h : Writes n cs v)
    (hr : r.run (cs ++ ',' :: rest) = some (v, ',' :: rest)) :
    (arrayItem r).run (cs ++ ',' :: rest) = some (some v, rest) := by
  obtain ⟨c, hc, hstart⟩ := h.head
  have hstarts : Starts (cs ++ ',' :: rest) := .of_isStart hc hstart
  have hclose : (cs ++ ',' :: rest).head? ≠ some ']' :=
    head?_ne (head?_append_of_head? hc) hstart ']' rfl
  have hcomma : Starts (',' :: rest) := by simp [Starts, isGap]
  have haccept : (accept ",").run (',' :: rest) = some (true, rest) := run_accept rfl
  simp [arrayItem, hstarts.run_space, run_accept_of_head (s := "]") rfl hclose, hr, hcomma.run_space,
    haccept]

/-- At the closing bracket of an array there is no item. -/
theorem run_arrayItem_bracket {r : Reader Value} :
    (arrayItem r).run (']' :: rest) = some (none, rest) := by
  have hstarts : Starts (']' :: rest) := by simp [Starts, isGap]
  have haccept : (accept "]").run (']' :: rest) = some (true, rest) := run_accept rfl
  simp [arrayItem, hstarts.run_space, haccept]

/-- A value is read where no quote comes after it. -/
theorem Writes.run (h : Writes n cs v) (hm : n ≤ m) (hrest : rest.head? ≠ some '"') :
    (value m).run (cs ++ rest) = some (v, rest) := by
  induction h generalizing m rest with
  | string s =>
    rw [run_value_of_head (by simp [quoted]) (by simp [quoted])]
    simp [simpleValue, run_string?_quoted hrest]
  | bool b =>
    rw [run_value_of_head (by cases b <;> simp) (by cases b <;> simp), run_simpleValue_bool]
  | @array n items hitems ih =>
    obtain ⟨m, rfl⟩ := Nat.exists_eq_add_one_of_ne_zero (Nat.ne_zero_of_lt hm)
    have hpieces : Takes (arrayItem (value m))
        ((items.map fun i => (i.1 ++ [','], i.2)).flatMap (·.1) ++ ']' :: rest)
        ((items.map fun i => (i.1 ++ [','], i.2)).map (·.2)) rest := by
      refine .pieces _ run_arrayItem_bracket fun p hp => ?_
      obtain ⟨i, hi, rfl⟩ := List.mem_map.1 hp
      refine ⟨by simp, fun cs => ?_⟩
      rw [List.append_assoc, List.singleton_append]
      exact (hitems i hi).run_arrayItem (ih i hi (by omega) (by simp))
    rw [List.flatMap_map, List.map_map] at hpieces
    have hopen : (accept "[").run ('[' :: (items.flatMap (fun i => i.1 ++ [',']) ++ ']' :: rest)) =
        some (true, items.flatMap (fun i => i.1 ++ [',']) ++ ']' :: rest) := run_accept rfl
    simp [value, hopen, arrayItems, hpieces.run_many]

/-! ### Lines -/

/-- The ways to write a line that is not blank. -/
inductive WritesLine : List Char → Line → Prop where
  /-- The header of a table. -/
  | header {cs : List Char} {names : List String} : WritesKey cs names → names.length < depthLimit →
      WritesLine ('[' :: (cs ++ [']'])) (.header names false)
  /-- The header of an element of an array of tables. -/
  | element {cs : List Char} {names : List String} : WritesKey cs names → names.length < depthLimit →
      WritesLine ('[' :: '[' :: (cs ++ [']', ']'])) (.header names true)
  /-- A key with its value. -/
  | item {cs ds : List Char} {path : List String} {key : String} {v : Value} :
      WritesKey cs (path ++ [key]) → path.length + 1 < depthLimit → Writes (depthLimit - 1) ds v →
      WritesLine (cs ++ ' ' :: '=' :: ' ' :: ds) (.item ⟨path, key, v⟩)

variable {l : Line}

theorem WritesLine.head (h : WritesLine cs l) : ∃ c, cs.head? = some c ∧ isStart c := by
  cases h with
  | header | element => exact ⟨'[', rfl, rfl⟩
  | item h =>
    obtain ⟨c, hc, hstart⟩ := h.head
    exact ⟨c, head?_append_of_head? hc, isStart_of_isNameStart hstart⟩

/-- The end of a line is taken. -/
theorem run_lineEnd : lineEnd.run ('\n' :: rest) = some ((), rest) := by
  have hhash : (accept "#").run ('\n' :: rest) = some (false, '\n' :: rest) :=
    run_accept_of_head (c := '#') rfl (by simp)
  have hcomment : comment.run ('\n' :: rest) = some (false, '\n' :: rest) := by
    simp [comment, hhash]
  have hfeed : (accept "\n").run ('\n' :: rest) = some (true, rest) := run_accept rfl
  simp [lineEnd, run_gap, isGap, run_discard hcomment, newline, hfeed]

/-- A key with its value is read up to the end of its line. -/
theorem run_item {path : List String} {key : String} (hkey : WritesKey cs (path ++ [key]))
    (hlimit : path.length + 1 < depthLimit) (hvalue : Writes n ds v) :
    (item (value n)).run (cs ++ ' ' :: '=' :: ' ' :: (ds ++ '\n' :: rest)) =
      some (⟨path, key, v⟩, '\n' :: rest) := by
  obtain ⟨c, hc, hstart⟩ := hvalue.head
  have hstarts : Starts (ds ++ '\n' :: rest) := .of_isStart hc hstart
  have hends : EndsKey (' ' :: '=' :: ' ' :: (ds ++ '\n' :: rest)) :=
    ⟨by simp; decide, by simp [isGap]⟩
  have hnames := hkey.run (by simpa using hlimit) hends
  have hequals : (expect "=").run ('=' :: ' ' :: (ds ++ '\n' :: rest)) =
      some ((), ' ' :: (ds ++ '\n' :: rest)) := run_expect rfl
  have hv : (value n).run (ds ++ '\n' :: rest) = some (v, '\n' :: rest) :=
    hvalue.run (Nat.le_refl n) (by simp)
  simp [item, hnames, isGap, hequals, run_gap, hstarts.dropWhile_isGap, hv]

/-- A line is read up to its end. -/
theorem WritesLine.run_statement (h : WritesLine cs l) :
    statement.run (cs ++ '\n' :: rest) = some (l, '\n' :: rest) := by
  cases h with
  | @header ds names hkey hlimit =>
    have hends : EndsKey (']' :: '\n' :: rest) := ⟨by simp; decide, by simp [isGap]⟩
    have hnames := hkey.run hlimit hends
    -- a name starts with no bracket, so that the second one cannot come from it
    have helement : (accept "[[").run ('[' :: (ds ++ ']' :: '\n' :: rest)) =
        some (false, '[' :: (ds ++ ']' :: '\n' :: rest)) := by
      obtain ⟨c, hc, hstart⟩ := hkey.head
      have hhead : (ds ++ ']' :: '\n' :: rest).head? = some c := head?_append_of_head? hc
      refine run_accept_of_not_prefix fun ⟨r, hr⟩ => head?_ne hhead hstart '[' rfl ?_
      have htail := congrArg List.tail hr
      rw [List.tail_cons] at htail
      rw [← htail]
      rfl
    have hheader : (accept "[").run ('[' :: (ds ++ ']' :: '\n' :: rest)) =
        some (true, ds ++ ']' :: '\n' :: rest) := run_accept rfl
    have hclose : (expect "]").run (']' :: '\n' :: rest) = some ((), '\n' :: rest) := run_expect rfl
    simp [statement, helement, hheader, hnames, isGap, hclose]
  | @element ds names hkey hlimit =>
    have hends : EndsKey (']' :: ']' :: '\n' :: rest) := ⟨by simp; decide, by simp [isGap]⟩
    have hnames := hkey.run hlimit hends
    have helement : (accept "[[").run ('[' :: '[' :: (ds ++ ']' :: ']' :: '\n' :: rest)) =
        some (true, ds ++ ']' :: ']' :: '\n' :: rest) := run_accept rfl
    have hclose : (expect "]]").run (']' :: ']' :: '\n' :: rest) = some ((), '\n' :: rest) :=
      run_expect rfl
    simp [statement, helement, hnames, isGap, hclose]
  | @item cs ds path key v hkey hlimit hvalue =>
    obtain ⟨c, hc, hstart⟩ := hkey.head
    have hhead : (cs ++ ' ' :: '=' :: ' ' :: (ds ++ '\n' :: rest)).head? = some c :=
      head?_append_of_head? hc
    have hbracket := head?_ne hhead hstart '[' rfl
    simp [statement, run_accept_of_head (s := "[[") rfl hbracket,
      run_accept_of_head (s := "[") rfl hbracket, run_item hkey hlimit hvalue]

/-- A line is read with its end. -/
theorem WritesLine.run (h : WritesLine cs l) :
    nextLine.run (cs ++ '\n' :: rest) = some (some l, rest) := by
  obtain ⟨c, hc, hstart⟩ := h.head
  have hstarts : Starts (cs ++ '\n' :: rest) := .of_isStart hc hstart
  simp [nextLine, hstarts.run_space, run_peek, hc, line, h.run_statement, run_lineEnd]

theorem run_nextLine_nil : nextLine.run [] = some (none, []) := rfl

end Reader

/-! ### Documents -/

open Reader

/-- The text of a document, from the texts of its lines. -/
def document (lines : List (List Char)) : String := String.ofList (lines.flatMap (· ++ ['\n']))

theorem withoutMark_of_head {cs : List Char} (h : cs.head? ≠ some '\ufeff') : withoutMark cs = cs := by
  cases cs with
  | nil => rfl
  | cons c cs =>
    rw [withoutMark]
    rintro ds hds
    exact h (by rw [hds]; rfl)

/-- **A document is read as its lines**: what is written line by line has the table of those lines, and
is refused where they have none. -/
theorem read?_document (ls : List (List Char × Line)) (h : ∀ l ∈ ls, WritesLine l.1 l.2) :
    read? (document (ls.map (·.1))) = tableOf? (ls.map (·.2)) := by
  have hmark : ((ls.map (·.1)).flatMap (· ++ ['\n'])).head? ≠ some '\ufeff' := by
    cases ls with
    | nil => simp
    | cons l ls =>
      obtain ⟨c, hc, hstart⟩ := (h l List.mem_cons_self).head
      exact head?_ne (by simp [hc]) hstart '\ufeff' rfl
  have htakes : Takes nextLine
      ((ls.map fun l => (l.1 ++ ['\n'], l.2)).flatMap (·.1) ++ [])
      ((ls.map fun l => (l.1 ++ ['\n'], l.2)).map (·.2)) [] := by
    refine .pieces _ run_nextLine_nil fun p hp => ?_
    obtain ⟨l, hl, rfl⟩ := List.mem_map.1 hp
    refine ⟨by simp, fun cs => ?_⟩
    rw [List.append_assoc, List.singleton_append]
    exact (h l hl).run
  rw [List.append_nil, List.flatMap_map, List.map_map] at htakes
  rw [read?, document, String.toList_ofList, withoutMark_of_head hmark, List.flatMap_map, lines,
    htakes.run_many]
  rfl

/-! ### Tables -/

theorem Table.get?_eq_none_iff {t : Table} {key : String} :
    t.get? key = none ↔ key ∉ t.map (·.1) := by
  rw [Table.get?, List.lookup_eq_none_iff, List.mem_map, not_exists]
  refine forall_congr' fun e => ?_
  rw [not_and, bne_iff_ne, ne_comm, ne_eq]

theorem Table.put_of_new {t : Table} {key : String} {v : Value} (h : key ∉ t.map (·.1)) :
    t.put key v = t ++ [(key, v)] := by
  induction t with
  | nil => rfl
  | cons e t ih =>
    rw [List.map_cons, List.mem_cons, not_or] at h
    rw [Table.put, if_neg (Ne.symm h.1), ih h.2, List.cons_append]

/-- A value is added at a key without dots if the key is new. -/
theorem Table.add_eq_some_iff {t t' : Table} {key : String} {v : Value} :
    t.add [] key v = some t' ↔ key ∉ t.map (·.1) ∧ t' = t ++ [(key, v)] := by
  rw [Table.add]
  by_cases hnew : key ∈ t.map (·.1)
  · have hsome : (t.get? key).isSome :=
      Option.isSome_iff_ne_none.2 fun h => Table.get?_eq_none_iff.1 h hnew
    simp [hsome, hnew]
  · simp [Table.get?_eq_none_iff.2 hnew, Table.put_of_new hnew, hnew, eq_comm]

/-- Items are added one by one, each behind what is there, if its key is new. -/
theorem Table.addAll_eq_some_iff {items : List Item} {t t' : Table} (hpath : ∀ i ∈ items, i.path = [])
    (ht : (t.map (·.1)).Nodup) :
    Table.addAll items t = some t' ↔ (t.map (·.1) ++ items.map (·.key)).Nodup ∧
      t' = t ++ items.map fun i => (i.key, i.value) := by
  induction items generalizing t with
  | nil => simp [Table.addAll, ht, eq_comm]
  | cons i items ih =>
    have hitems : ∀ j ∈ items, j.path = [] := fun j hj => hpath j (List.mem_cons_of_mem i hj)
    have hkeys : (t ++ [(i.key, i.value)]).map (·.1) = t.map (·.1) ++ [i.key] := by simp
    rw [Table.addAll, List.foldlM_cons, hpath i List.mem_cons_self, Option.bind_eq_bind,
      Option.bind_eq_some_iff]
    constructor
    · rintro ⟨u, hu, hmore⟩
      obtain ⟨hnew, rfl⟩ := Table.add_eq_some_iff.1 hu
      have hnodup := List.Nodup.concat hnew ht
      rw [List.concat_eq_append, ← hkeys] at hnodup
      simpa using (ih hitems hnodup).1 hmore
    · rintro ⟨hall, rfl⟩
      rw [List.map_cons, ← List.singleton_append (x := i.key), ← List.append_assoc, ← hkeys] at hall
      have hnodup := hall.of_append_left
      have hnew : i.key ∉ t.map (·.1) := by
        rw [hkeys] at hnodup
        exact fun hmem => List.disjoint_of_nodup_append hnodup hmem List.mem_cons_self
      exact ⟨_, Table.add_eq_some_iff.2 ⟨hnew, rfl⟩, (ih hitems hnodup).2 (by simpa using hall)⟩

/-- **No key is given twice**: items whose keys have no dots make up a table if and only if their keys
are different, and then the table has them in their order. -/
theorem Value.ofItems?_eq_some_iff {items : List Item} {v : Value} (hpath : ∀ i ∈ items, i.path = []) :
    Value.ofItems? items = some v ↔ (items.map (·.key)).Nodup ∧
      v = .table .inline (items.map fun i => (i.key, i.value)) := by
  rw [Value.ofItems?, Option.map_eq_some_iff]
  have hnil : (([] : Table).map (·.1)).Nodup := List.nodup_nil
  simp [Table.addAll_eq_some_iff hpath hnil, eq_comm]

end ShaderFilter.Toml

namespace ShaderFilter.Config

open Toml.Reader (quoted isKeyChar depthLimit Writes WritesKey WritesLine)

/-- An array of strings, as it is written. -/
def arrayText (xs : List String) : List Char :=
  '[' :: (xs.flatMap (fun s => quoted s ++ [',']) ++ [']'])

theorem writes_arrayText (xs : List String) :
    Writes (depthLimit - 1) (arrayText xs) (.array (xs.map .string)) := by
  have h := Writes.array (n := depthLimit - 2) (xs.map fun s => (quoted s, .string s)) fun i hi => by
    obtain ⟨s, -, rfl⟩ := List.mem_map.1 hi
    exact .string s
  rw [List.flatMap_map, List.map_map] at h
  exact h

/-- A key with an array of strings is written in one line. -/
theorem writesLine_arrayText {key : String} (hne : key.toList ≠ [])
    (hall : ∀ c ∈ key.toList, isKeyChar c) (xs : List String) :
    WritesLine (key.toList ++ ' ' :: '=' :: ' ' :: arrayText xs)
      (.item ⟨[], key, .array (xs.map .string)⟩) :=
  have hkey : WritesKey key.toList ([] ++ [key]) := .name (.bare hne hall)
  .item hkey (by decide) (writes_arrayText xs)

theorem strings?_array (xs : List String) : strings? (.array (xs.map .string)) = some xs := by
  rw [strings?]
  induction xs with
  | nil => rfl
  | cons x xs ih => simp [ih]

/-- A configuration file. -/
def document (c : Config) : String :=
  Toml.document ["[filters]".toList, "dirs".toList ++ ' ' :: '=' :: ' ' :: arrayText c.dirs,
    "extensions".toList ++ ' ' :: '=' :: ' ' :: arrayText c.extensions]

/-- **Every configuration can be written**: its file is read back as itself. -/
theorem read?_document (c : Config) : read? c.document = some c := by
  have hread := Toml.read?_document [
    ("[filters]".toList, .header ["filters"] false),
    ("dirs".toList ++ ' ' :: '=' :: ' ' :: arrayText c.dirs,
      .item ⟨[], "dirs", .array (c.dirs.map .string)⟩),
    ("extensions".toList ++ ' ' :: '=' :: ' ' :: arrayText c.extensions,
      .item ⟨[], "extensions", .array (c.extensions.map .string)⟩)] (by
    simp only [List.forall_mem_cons, List.not_mem_nil, IsEmpty.forall_iff, implies_true, and_true]
    exact ⟨.header (.name (.bare (s := "filters") (by simp) (by simp; decide))) (by decide),
      writesLine_arrayText (by simp) (by simp; decide) _,
      writesLine_arrayText (by simp) (by simp; decide) _⟩)
  have htext : Toml.read? c.document = some [("filters", .table .header
      [("dirs", .array (c.dirs.map .string)), ("extensions", .array (c.extensions.map .string))])] :=
    hread
  rw [read?, htext]
  simp [ofTable?, Toml.Table.get?, List.lookup_cons, ofValues?, stringsOr, strings?_array]

end ShaderFilter.Config
