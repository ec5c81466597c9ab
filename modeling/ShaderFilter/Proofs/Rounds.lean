import ShaderFilter.Cli.Run
import ShaderFilter.Proofs.Playing

/-!
# Rounds of keys

Keys can be pressed in two orders. The report presses all keys on one parameter before it goes on to
the next parameter; a host presses one key on all parameters, in the order of their declaration,
before it goes on to the next key. Both come to the same values. A round of one key reaches every
parameter once and does to it what the key does there (`Board.round_eq_map`), so by induction on
the keys every parameter has seen all of them in their order (`Board.rounds_eq_map`).

What a press does is told by the keys that are bound. A key that is not bound on a parameter leaves
what is held of it, so it can be left out (`Parameter.pressKeys_filter`); a bound one always has its
action, because the value that is held has the kind of the parameter
(`Parameter.pressKeys_of_kind`).
-/

namespace ShaderFilter

/-! ### One parameter -/

namespace Parameter

variable {p : Parameter} {key : Key} {keys : List Key} {held : Value × Bool}

/-- Presses one key. Gives the value that is held then, and whether a key has had an action. -/
def press (p : Parameter) (key : Key) (held : Value × Bool) : Value × Bool :=
  match p.fire? (.key key) held.1 with
  | some v => (v, true)
  | none => held

theorem pressKeys_cons (p : Parameter) (key : Key) (keys : List Key) (held : Value × Bool) :
    p.pressKeys (key :: keys) held = p.pressKeys keys (p.press key held) := rfl

theorem press_of_not_mem (h : key ∉ p.keys) (held : Value × Bool) : p.press key held = held := by
  rw [mem_keys, Option.not_isSome_iff_eq_none] at h
  rw [press, fire?_eq_none h]

/-- A bound key has its action on every value of the kind of the parameter. -/
theorem press_of_mem (h : key ∈ p.keys) (hk : held.1.kind = p.kind) :
    p.press key held = (p.next (.key key) held.1, true) := by
  obtain ⟨v, hv⟩ := Option.isSome_iff_exists.1 (isSome_fire?.2 ⟨mem_keys.1 h, hk⟩)
  rw [press, hv, next_of_fire? hv]

/-- A press keeps the kind of the value. -/
theorem kind_press (key : Key) (hk : held.1.kind = p.kind) :
    (p.press key held).1.kind = p.kind := by
  unfold press
  cases h : p.fire? (.key key) held.1 with
  | none => exact hk
  | some v => exact kind_of_fire? h

/-- Keys that are not bound can be left out. -/
theorem pressKeys_filter (p : Parameter) (keys : List Key) (held : Value × Bool) :
    p.pressKeys (keys.filter (· ∈ p.keys)) held = p.pressKeys keys held := by
  induction keys generalizing held with
  | nil => rfl
  | cons key keys ih =>
    by_cases h : key ∈ p.keys
    · rw [List.filter_cons_of_pos (by simpa using h), pressKeys_cons, pressKeys_cons, ih]
    · rw [List.filter_cons_of_neg (by simpa using h), pressKeys_cons, press_of_not_mem h, ih]

/-- **Every bound key counts.** On a value of the kind of the parameter, the presses keep the kind,
and one of them has had an action if one of the keys is bound. -/
theorem pressKeys_of_kind (keys : List Key) (hk : held.1.kind = p.kind) :
    (p.pressKeys keys held).1.kind = p.kind ∧
    ((p.pressKeys keys held).2 = true ↔ held.2 = true ∨ ∃ key ∈ keys, key ∈ p.keys) := by
  induction keys generalizing held with
  | nil => simp [pressKeys, hk]
  | cons key keys ih =>
    rw [pressKeys_cons]
    obtain ⟨hkind, htouched⟩ := ih (kind_press key hk)
    refine ⟨hkind, htouched.trans ?_⟩
    by_cases h : key ∈ p.keys
    · simp [press_of_mem h hk, h]
    · simp [press_of_not_mem h, h]

/-- What is held of a parameter after keys have been pressed on it, from its default on. -/
def pressed (p : Parameter) (keys : List Key) : Value × Bool := p.pressKeys keys (p.default, false)

theorem pressed_filter (p : Parameter) (keys : List Key) :
    p.pressed (keys.filter (· ∈ p.keys)) = p.pressed keys := p.pressKeys_filter keys _

theorem kind_pressed (p : Parameter) (keys : List Key) : (p.pressed keys).1.kind = p.kind := by
  have hk : (p.default, false).1.kind = p.kind := kind_default
  exact (pressKeys_of_kind keys hk).1

theorem touched_pressed : (p.pressed keys).2 = true ↔ ∃ key ∈ keys, key ∈ p.keys := by
  have hk : (p.default, false).1.kind = p.kind := kind_default
  have htouched := (pressKeys_of_kind keys hk).2
  rwa [or_iff_right Bool.false_ne_true] at htouched

end Parameter

/-! ### All parameters, key by key -/

/-- The parameters of a filter, each with its current value and with whether a key has had an action
on it. -/
abbrev Board := List (Parameter × Value × Bool)

/-- The parameters with their defaults, before any key. -/
def Definition.board (d : Definition) : Board := d.parameters.map fun p => (p, p.default, false)

namespace Board

/-- Presses a key on parameter number `i`. -/
def pressAt (key : Key) (b : Board) (i : Nat) : Board :=
  b.modify i fun (p, held) => (p, p.press key held)

/-- Presses a key on one parameter after the other, in the order of their declaration. -/
def round (b : Board) (key : Key) : Board := (List.range b.length).foldl (pressAt key) b

/-- Presses one key after the other, each on all parameters. -/
def rounds (b : Board) (keys : List Key) : Board := keys.foldl round b

/-- The parameters with their current values. -/
def session (b : Board) : Session := b.map fun (p, v, _) => (p, v)

/-- The first `n` steps of a round reach the first `n` parameters, each of them once. -/
theorem getElem?_foldl_pressAt (key : Key) (b : Board) (n i : Nat) :
    ((List.range n).foldl (pressAt key) b)[i]? =
      b[i]?.map fun (p, held) => if i < n then (p, p.press key held) else (p, held) := by
  induction n with
  | zero => simp
  | succ n ih =>
    rw [List.range_succ, List.foldl_append, List.foldl_cons, List.foldl_nil, pressAt,
      List.getElem?_modify, ih, Option.map_eq_map, Option.map_map]
    refine congrArg (b[i]?.map ·) (funext fun (p, held) => ?_)
    rcases Nat.lt_trichotomy i n with hi | rfl | hi
    · simp [hi, hi.ne', Nat.lt_succ_of_lt hi]
    · simp
    · simp [hi.ne, Nat.not_lt.2 hi.le, Nat.not_lt.2 (Nat.succ_le_of_lt hi)]

theorem round_eq_map (b : Board) (key : Key) :
    b.round key = b.map fun (p, held) => (p, p.press key held) := by
  refine List.ext_getElem? fun i => ?_
  rw [round, getElem?_foldl_pressAt, List.getElem?_map]
  by_cases hi : i < b.length
  · simp [hi]
  · simp [List.getElem?_eq_none (Nat.not_lt.1 hi)]

theorem rounds_eq_map (b : Board) (keys : List Key) :
    b.rounds keys = b.map fun (p, held) => (p, p.pressKeys keys held) := by
  induction keys generalizing b with
  | nil => simp [rounds, Parameter.pressKeys]
  | cons key keys ih =>
    have hcons : b.rounds (key :: keys) = (b.round key).rounds keys := rfl
    rw [hcons, ih, round_eq_map, List.map_map]
    rfl

/-- The values of a board are those of a session of which the same keys are pressed. -/
theorem session_rounds (b : Board) (keys : List Key) :
    (b.rounds keys).session = keys.foldl (fun s key => s.pressAll key) b.session := by
  induction keys generalizing b with
  | nil => rfl
  | cons key keys ih =>
    have hcons : b.rounds (key :: keys) = (b.round key).rounds keys := rfl
    have hround : (b.round key).session = b.session.pressAll key := by
      simp only [round_eq_map, session, Session.pressAll, List.map_map]
      refine List.map_congr_left fun (p, v, touched) _ => ?_
      simp only [Function.comp_apply, Parameter.press, Parameter.next]
      cases p.fire? (.key key) v <;> rfl
    rw [hcons, ih, hround, List.foldl_cons]

end Board

/-! ### The report -/

namespace Parameter

/-- One of the keys is bound on the parameter. -/
def Answers (p : Parameter) (keys : List Key) : Prop := ∃ key ∈ keys, key ∈ p.keys

instance (p : Parameter) (keys : List Key) : Decidable (p.Answers keys) :=
  inferInstanceAs (Decidable (∃ key ∈ keys, key ∈ p.keys))

theorem afterKeys?_eq (p : Parameter) (keys : List Key) :
    p.afterKeys? keys = if p.Answers keys then some (p.pressed keys).1 else none := by
  have htouched : (p.pressed keys).2 = true ↔ p.Answers keys := touched_pressed
  rw [afterKeys?, ← pressed]
  generalize p.pressed keys = held at htouched ⊢
  obtain ⟨v, touched⟩ := held
  cases touched <;> simp [← htouched]

/-- Only the keys that are bound on the parameter count. -/
theorem afterKeys?_filter (p : Parameter) (keys : List Key) :
    p.afterKeys? (keys.filter (· ∈ p.keys)) = p.afterKeys? keys := by
  rw [afterKeys?, pressKeys_filter, afterKeys?]

end Parameter

/-- A key is bound on one of the parameters. -/
def Definition.Binds (d : Definition) (key : Key) : Prop := ∃ p ∈ d.parameters, key ∈ p.keys

instance (d : Definition) (key : Key) : Decidable (d.Binds key) :=
  inferInstanceAs (Decidable (∃ p ∈ d.parameters, key ∈ p.keys))

namespace Cli

/-- The line about a parameter with the value that keys have led to. -/
def heldLine (keys : List Key) (p : Parameter) : String :=
  line s!"  {p.name} = {(p.pressed keys).1.text}"

theorem pressLine_eq (keys : List Key) (p : Parameter) :
    pressLine keys p = if p.Answers keys then heldLine keys p else "" := by
  rw [pressLine, Parameter.afterKeys?_eq]
  by_cases h : p.Answers keys
  · rw [if_pos h, if_pos h]
    rfl
  · rw [if_neg h, if_neg h]

/-- The report has a line for every parameter on which one of the keys is bound, in the order of
declaration. -/
theorem pressReport_eq (keys : List Key) (d : Definition) :
    pressReport keys d =
      String.join ((d.parameters.filter (·.Answers keys)).map (heldLine keys)) := by
  unfold pressReport
  induction d.parameters with
  | nil => rfl
  | cons p ps ih =>
    rw [List.map_cons, String.join_cons, ih, pressLine_eq]
    by_cases h : p.Answers keys
    · rw [if_pos h, List.filter_cons_of_pos (by simpa using h), List.map_cons, String.join_cons]
    · rw [if_neg h, List.filter_cons_of_neg (by simpa using h), String.empty_append]

/-- Only the keys that are bound on a parameter count. -/
theorem pressReport_filter (keys : List Key) (d : Definition) :
    pressReport (keys.filter (d.Binds ·)) d = pressReport keys d := by
  refine congrArg String.join (List.map_congr_left fun p hp => ?_)
  have hbound : (keys.filter (d.Binds ·)).filter (· ∈ p.keys) = keys.filter (· ∈ p.keys) := by
    rw [List.filter_filter]
    refine List.filter_congr fun key _ => ?_
    rw [Bool.and_eq_left_iff_imp, decide_eq_true_iff, decide_eq_true_iff]
    exact fun hk => ⟨p, hp, hk⟩
  rw [pressLine, ← p.afterKeys?_filter, hbound, p.afterKeys?_filter, pressLine]

theorem report_eq (o : Options) (keys : List Key) (d : Definition) :
    report o keys d = report o [] d ++ pressReport keys d := by
  by_cases h : keys = []
  · subst h
    rw [pressReport_eq, List.filter_eq_nil_iff.2 (by simp [Parameter.Answers]), List.map_nil,
      String.join_nil, String.append_empty]
  · simp only [report, if_neg h, if_pos, String.append_empty]

end Cli

/-- **Keys may be pressed parameter by parameter or key by key.** Press any keys on the parameters
of a filter, from the defaults on.

Pressing all of them on one parameter after the other, as the report does, gives every parameter
the value that it has after rounds of one key on all parameters, in the order of their declaration,
and the rounds touch the same parameters. They hold the values of a session, which are of the kinds
of their parameters.

The report has a line for every parameter on which one of the keys is bound, and no other line, in
the order of declaration. What is held of a parameter depends on the keys that are bound on it, and
what is written about the filter on the keys that are bound on any parameter: with any others put in
or left out, the output is the same. -/
theorem Definition.key_loops_interchange (d : Definition) (keys : List Key) :
    d.board.rounds keys = d.parameters.map (fun p => (p, p.pressKeys keys (p.default, false))) ∧
    (d.board.rounds keys).session = keys.foldl (fun s key => s.pressAll key) d.session ∧
    (∀ row ∈ d.board.rounds keys, row.2.1.kind = row.1.kind) ∧
    Cli.pressReport keys d =
      String.join ((d.parameters.filter (·.Answers keys)).map (Cli.heldLine keys)) ∧
    (∀ (p : Parameter) (keys' : List Key),
      keys'.filter (· ∈ p.keys) = keys.filter (· ∈ p.keys) → p.pressed keys' = p.pressed keys) ∧
    (∀ keys' : List Key, keys'.filter (d.Binds ·) = keys.filter (d.Binds ·) →
      ∀ o, Cli.report o keys' d = Cli.report o keys d) := by
  have hrounds : d.board.rounds keys = d.parameters.map (fun p => (p, p.pressed keys)) := by
    rw [Board.rounds_eq_map, Definition.board, List.map_map]
    rfl
  refine ⟨hrounds, ?_, ?_, Cli.pressReport_eq keys d, fun p keys' h => ?_, fun keys' h o => ?_⟩
  · rw [Board.session_rounds, Board.session, Definition.board, List.map_map]
    rfl
  · intro row hrow
    rw [hrounds] at hrow
    obtain ⟨p, -, rfl⟩ := List.mem_map.1 hrow
    exact p.kind_pressed keys
  · rw [← p.pressed_filter keys', h, p.pressed_filter]
  · rw [Cli.report_eq o keys', ← Cli.pressReport_filter, h, Cli.pressReport_filter, ← Cli.report_eq]

/-- A script whose first key is bound on a whole number and on a truth value. -/
def sharedKey : String :=
  "#param n,0,int,5,0,10\n#param b,1,bool\n#keybinding n,Up,3,add\n" ++
    "#keybinding b,24,true,add\n#keybinding b,T,true,set"

/-- The number stops at its bound, the truth value turns twice before it is set, and the key that is
bound on neither changes nothing. -/
theorem Script.key_loops_interchange_shared :
    ∃ d, (Script.parse "f" sharedKey).result = .ok d ∧
      Cli.pressReport [⟨24⟩, ⟨90⟩, ⟨24⟩, ⟨63⟩] d = "  n = 10\n  b = true\n" ∧
      [⟨24⟩, ⟨90⟩, ⟨24⟩, ⟨63⟩].filter (d.Binds ·) = [⟨24⟩, ⟨24⟩, ⟨63⟩].filter (d.Binds ·) ∧
      ∀ o, Cli.report o [⟨24⟩, ⟨90⟩, ⟨24⟩, ⟨63⟩] d = Cli.report o [⟨24⟩, ⟨24⟩, ⟨63⟩] d := by
  have hshown : (Script.parse "f" sharedKey).result.toOption.map (fun d =>
      (Cli.pressReport [⟨24⟩, ⟨90⟩, ⟨24⟩, ⟨63⟩] d,
        decide ([⟨24⟩, ⟨90⟩, ⟨24⟩, ⟨63⟩].filter (d.Binds ·) =
          [⟨24⟩, ⟨24⟩, ⟨63⟩].filter (d.Binds ·)))) =
      some ("  n = 10\n  b = true\n", true) := by decide +kernel
  obtain ⟨d, hd, h⟩ := Option.map_eq_some_iff.1 hshown
  simp only [Prod.mk.injEq, decide_eq_true_eq] at h
  obtain ⟨hreport, hbound⟩ := h
  obtain ⟨-, -, -, -, -, hsame⟩ := d.key_loops_interchange [⟨24⟩, ⟨24⟩, ⟨63⟩]
  exact ⟨d, Script.toOption_eq_some.1 hd, hreport, hbound, hsame _ hbound⟩

end ShaderFilter
