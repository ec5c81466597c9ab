import ShaderFilter.Pattern.Machine
import ShaderFilter.Proofs.Pattern.Matching

/-!
# Laying out patterns

A machine has found its pattern once it comes to a step that says so (`Machine.Finds`, where the steps on
the way are counted). A pattern that is laid out in front of a step leads to this step from all places and
to all places as the pattern does (`laidOut_pattern`), whatever else the machine consists of. So the machine
of a pattern finds it exactly where it matches (`finds_machine_iff`).

The argument is by induction on the pattern. A loop leads back to itself, so there it is by induction on
the number of steps that the machine takes until it has found the pattern.
-/

namespace ShaderFilter.Pattern

open Relation Place

/-- The steps that a step leads to at a place without a character. -/
def Step.here (x : Place) : Step → List Nat
  | .check a j => if a.holds x.before.getLast? x.after.head? then [j] else []
  | .fork j k => [j, k]
  | .found | .char _ _ | .one _ _ => []

/-- There are two of them at most. -/
theorem Step.length_here_le (s : Step) (x : Place) : (s.here x).length ≤ 2 := by
  cases s <;> simp only [Step.here] <;> (try split) <;> simp

/-- The steps that a step leads to by the character after a place. -/
def Step.there (x : Place) : Step → List Nat
  | .char c j => if x.after.head? = some c then [j] else []
  | .one s j => if x.after.head?.any s.contains then [j] else []
  | .found | .check _ _ | .fork _ _ => []

namespace Machine

/-- From a step at a place the machine comes to where its pattern has been found, with at most `n` steps on
the way. -/
inductive Finds (m : Machine) : (n i : Nat) → Place → Prop where
  /-- Here. -/
  | found {n i : Nat} {x : Place} : m.steps[i]? = some .found → Finds m n i x
  /-- From a step that this one leads to. -/
  | pass {n i j : Nat} {s : Step} {x : Place} : m.steps[i]? = some s → j ∈ s.here x → Finds m n j x →
      Finds m (n + 1) i x
  /-- From a step that this one leads to, at the next place. -/
  | take {n i j : Nat} {s : Step} {c : Char} {x y : Place} : m.steps[i]? = some s → j ∈ s.there x →
      Over [c] x y → Finds m n j y → Finds m (n + 1) i x

variable {m : Machine}

theorem Finds.mono {n k i : Nat} {x : Place} (h : m.Finds n i x) (hle : n ≤ k) : m.Finds k i x := by
  induction h generalizing k with
  | found hi => exact .found hi
  | pass hs hj _ ih =>
    obtain _ | k := k
    · omega
    · exact .pass hs hj (ih (by omega))
  | take hs hj hover _ ih =>
    obtain _ | k := k
    · omega
    · exact .take hs hj hover (ih (by omega))

/-- Steps stand in a machine from a number on. -/
def Has (m : Machine) (start : Nat) (steps : Array Step) : Prop :=
  ∀ i < steps.size, m.steps[start + i]? = steps[i]?

theorem has_append {start : Nat} {steps others : Array Step} :
    m.Has start (steps ++ others) ↔ m.Has start steps ∧ m.Has (start + steps.size) others := by
  constructor
  · intro h
    constructor
    · intro i hi
      rw [h i (by simp; omega), Array.getElem?_append_left hi]
    · intro i hi
      rw [Nat.add_assoc, h (steps.size + i) (by simp; omega),
        Array.getElem?_append_right (Nat.le_add_right _ _), Nat.add_sub_cancel_left]
  · rintro ⟨h, h'⟩ i hi
    by_cases hlt : i < steps.size
    · rw [h i hlt, Array.getElem?_append_left hlt]
    · obtain ⟨j, rfl⟩ := Nat.exists_eq_add_of_le (Nat.le_of_not_lt hlt)
      rw [← Nat.add_assoc, h' j (by simp at hi; omega),
        Array.getElem?_append_right (Nat.le_add_right _ _), Nat.add_sub_cancel_left]

theorem has_singleton {start : Nat} {s : Step} : m.Has start #[s] ↔ m.steps[start]? = some s := by
  constructor
  · intro h
    exact h 0 (by simp)
  · intro h i hi
    obtain rfl : i = 0 := by simp at hi; omega
    exact h

end Machine

/-! ### What single steps lead to -/

/-- Steps lead from a first one to a next one as a relation between places says. -/
structure Leads (m : Machine) (r : Place → Place → Prop) (first next : Nat) : Prop where
  /-- What is found from the first step is found from the next one, with no more steps on the way. -/
  sound : ∀ {n : Nat} {x : Place}, m.Finds n first x → ∃ y, r x y ∧ m.Finds n next y
  /-- What is found from the next step is found from the first one. -/
  complete : ∀ {n : Nat} {x y : Place}, r x y → m.Finds n next y → ∃ k, m.Finds k first x

section

variable {m : Machine} {first next : Nat}

theorem leads_eq : Leads m Eq next next where
  sound h := ⟨_, rfl, h⟩
  complete := by
    rintro n x _ rfl h
    exact ⟨n, h⟩

theorem Leads.comp {r r' : Place → Place → Prop} {middle : Nat} (h : Leads m r first middle)
    (h' : Leads m r' middle next) : Leads m (Comp r r') first next where
  sound hfinds := by
    obtain ⟨y, hy, hmiddle⟩ := h.sound hfinds
    obtain ⟨z, hz, hnext⟩ := h'.sound hmiddle
    exact ⟨z, ⟨y, hy, hz⟩, hnext⟩
  complete := by
    rintro n x z ⟨y, hy, hz⟩ hnext
    obtain ⟨k, hmiddle⟩ := h'.complete hz hnext
    exact h.complete hy hmiddle

/-- What is found from a step is found from one that it leads to. -/
theorem Machine.Finds.cases_step {n : Nat} {s : Step} {x : Place} (hfinds : m.Finds n first x)
    (h : m.steps[first]? = some s) (hfound : s ≠ .found) :
    ∃ k < n, (∃ j ∈ s.here x, m.Finds k j x) ∨
      ∃ j ∈ s.there x, ∃ c y, Over [c] x y ∧ m.Finds k j y := by
  cases hfinds with
  | found hs => exact absurd (Option.some.inj (h.symm.trans hs)) hfound
  | pass hs hj hnext =>
    obtain rfl := Option.some.inj (h.symm.trans hs)
    exact ⟨_, Nat.lt_succ_self _, .inl ⟨_, hj, hnext⟩⟩
  | take hs hj hover hnext =>
    obtain rfl := Option.some.inj (h.symm.trans hs)
    exact ⟨_, Nat.lt_succ_self _, .inr ⟨_, hj, _, _, hover, hnext⟩⟩

theorem leads_char {c : Char} (h : m.steps[first]? = some (.char c next)) :
    Leads m (Over [c]) first next where
  sound hfinds := by
    obtain ⟨k, hk, ⟨j, hj, -⟩ | ⟨j, hj, d, y, hover, hnext⟩⟩ := hfinds.cases_step h (by simp)
    · cases hj
    · obtain ⟨rfl, rfl⟩ : d = c ∧ j = next := by simpa [Step.there, hover.1] using hj
      exact ⟨y, hover, hnext.mono (Nat.le_of_lt hk)⟩
  complete hover hnext := ⟨_, .take h (by simp [Step.there, hover.1]) hover hnext⟩

theorem leads_one {s : CharSet} (h : m.steps[first]? = some (.one s next)) :
    Leads m (fun x y => ∃ c, s.contains c ∧ Over [c] x y) first next where
  sound hfinds := by
    obtain ⟨k, hk, ⟨j, hj, -⟩ | ⟨j, hj, c, y, hover, hnext⟩⟩ := hfinds.cases_step h (by simp)
    · cases hj
    · obtain ⟨hc, rfl⟩ : s.contains c ∧ j = next := by simpa [Step.there, hover.1] using hj
      exact ⟨y, ⟨c, hc, hover⟩, hnext.mono (Nat.le_of_lt hk)⟩
  complete := by
    rintro n x y ⟨c, hc, hover⟩ hnext
    exact ⟨_, .take h (by simp [Step.there, hover.1, hc]) hover hnext⟩

theorem leads_check {a : Assertion} (h : m.steps[first]? = some (.check a next)) :
    Leads m (fun x y => a.holds x.before.getLast? x.after.head? ∧ x = y) first next where
  sound hfinds := by
    obtain ⟨k, hk, ⟨j, hj, hnext⟩ | ⟨j, hj, -⟩⟩ := hfinds.cases_step h (by simp)
    · obtain ⟨ha, rfl⟩ : _ ∧ j = next := by simpa [Step.here] using hj
      exact ⟨_, ⟨ha, rfl⟩, hnext.mono (Nat.le_of_lt hk)⟩
    · cases hj
  complete := by
    rintro n x _ ⟨ha, rfl⟩ hnext
    exact ⟨_, .pass h (by simp [Step.here, ha]) hnext⟩

/-- From a fork one of its two ways is gone. -/
theorem Machine.Finds.of_fork {n left right : Nat} {x : Place} (hfinds : m.Finds n first x)
    (h : m.steps[first]? = some (.fork left right)) :
    ∃ k < n, m.Finds k left x ∨ m.Finds k right x := by
  obtain ⟨k, hk, ⟨j, hj, hnext⟩ | ⟨j, hj, -⟩⟩ := hfinds.cases_step h (by simp)
  · obtain rfl | rfl : j = left ∨ j = right := by simpa [Step.here] using hj
    · exact ⟨k, hk, .inl hnext⟩
    · exact ⟨k, hk, .inr hnext⟩
  · cases hj

theorem leads_fork {r r' : Place → Place → Prop} {left right : Nat}
    (h : m.steps[first]? = some (.fork left right)) (hleft : Leads m r left next)
    (hright : Leads m r' right next) : Leads m (fun x y => r x y ∨ r' x y) first next where
  sound hfinds := by
    obtain ⟨k, hk, hfinds | hfinds⟩ := hfinds.of_fork h
    · obtain ⟨y, hy, hnext⟩ := hleft.sound hfinds
      exact ⟨y, .inl hy, hnext.mono (Nat.le_of_lt hk)⟩
    · obtain ⟨y, hy, hnext⟩ := hright.sound hfinds
      exact ⟨y, .inr hy, hnext.mono (Nat.le_of_lt hk)⟩
  complete := by
    rintro n x y (hr | hr) hnext
    · obtain ⟨k, hk⟩ := hleft.complete hr hnext
      exact ⟨_, .pass h (by simp [Step.here]) hk⟩
    · obtain ⟨k, hk⟩ := hright.complete hr hnext
      exact ⟨_, .pass h (by simp [Step.here]) hk⟩

/-- A fork whose left way comes back to it is a loop. -/
theorem leads_loop {r : Place → Place → Prop} {body : Nat}
    (h : m.steps[first]? = some (.fork body next)) (hbody : Leads m r body first) :
    Leads m (fun x y => ∃ n, Times r n x y) first next where
  sound {n x} hfinds := by
    induction n using Nat.strongRecOn generalizing x with
    | ind n ih =>
      obtain ⟨k, hk, hfinds | hfinds⟩ := hfinds.of_fork h
      · obtain ⟨y, hy, hfirst⟩ := hbody.sound hfinds
        obtain ⟨z, ⟨n', hz⟩, hnext⟩ := ih k hk hfirst
        exact ⟨z, ⟨n' + 1, y, hy, hz⟩, hnext.mono (Nat.le_of_lt hk)⟩
      · exact ⟨x, ⟨0, rfl⟩, hfinds.mono (Nat.le_of_lt hk)⟩
  complete := by
    rintro n x y ⟨n', htimes⟩ hnext
    induction n' generalizing x with
    | zero =>
      obtain rfl : x = y := htimes
      exact ⟨_, .pass h (by simp [Step.here]) hnext⟩
    | succ n' ih =>
      obtain ⟨z, hz, hothers⟩ := htimes
      obtain ⟨k, hk⟩ := ih hothers
      obtain ⟨k', hk'⟩ := hbody.complete hz hk
      exact ⟨_, .pass h (by simp [Step.here]) hk'⟩

end

/-! ### Layouts -/

/-- A layout adds steps that lead to the next one as a relation says, whatever a machine has beside them. -/
def LaidOut (f : Nat → Layout Nat) (r : Place → Place → Prop) : Prop :=
  ∀ next steps, ∃ first added, (f next).run steps = (first, steps ++ added) ∧
    ∀ m : Machine, m.Has steps.size added → Leads m r first next

namespace LaidOut

variable {f g : Nat → Layout Nat} {r r' : Place → Place → Prop}

theorem pure : LaidOut (fun next => return next) Eq := by
  intro next steps
  exact ⟨next, #[], by rw [Array.append_empty]; rfl, fun _ _ => leads_eq⟩

/-- One step is laid out. -/
theorem add {s : Nat → Step}
    (h : ∀ {m : Machine} {first next : Nat}, m.steps[first]? = some (s next) → Leads m r first next) :
    LaidOut (fun next => Layout.add (s next)) r := by
  intro next steps
  exact ⟨steps.size, #[s next], by rw [Array.append_singleton]; rfl,
    fun m hm => h (Machine.has_singleton.1 hm)⟩

/-- What is laid out in front of something comes first. -/
theorem comp (hf : LaidOut f r) (hg : LaidOut g r') :
    LaidOut (fun next => do f (← g next)) (Comp r r') := by
  intro next steps
  obtain ⟨middle, added, hrun, hleads⟩ := hg next steps
  obtain ⟨first, added', hrun', hleads'⟩ := hf middle (steps ++ added)
  refine ⟨first, added ++ added', ?_, ?_⟩
  · rw [StateT.run_bind, hrun, ← Array.append_assoc]
    exact hrun'
  · intro m hm
    obtain ⟨hadded, hadded'⟩ := Machine.has_append.1 hm
    exact (hleads' m (by simpa using hadded')).comp (hleads m hadded)

/-- Two ways are laid out, with a step in front of them. -/
theorem either (hf : LaidOut f r) (hg : LaidOut g r') :
    LaidOut (fun next => do Layout.add (.fork (← f next) (← g next)))
      (fun x y => r x y ∨ r' x y) := by
  intro next steps
  obtain ⟨left, added, hrun, hleads⟩ := hf next steps
  obtain ⟨right, added', hrun', hleads'⟩ := hg next (steps ++ added)
  refine ⟨(steps ++ added ++ added').size, added ++ added' ++ #[.fork left right], ?_, ?_⟩
  · rw [StateT.run_bind, hrun]
    change (g next >>= fun right => Layout.add (.fork left right)).run (steps ++ added) = _
    rw [StateT.run_bind, hrun', ← Array.append_assoc, ← Array.append_assoc, Array.append_singleton]
    rfl
  · intro m hm
    obtain ⟨hboth, hfork⟩ := Machine.has_append.1 hm
    obtain ⟨hadded, hadded'⟩ := Machine.has_append.1 hboth
    refine leads_fork ?_ (hleads m hadded) (hleads' m (by simpa using hadded'))
    have := Machine.has_singleton.1 hfork
    simpa [Nat.add_assoc] using this

/-- A loop is laid out: a step behind which there is something that comes back to it. -/
theorem loop (hf : LaidOut f r) :
    LaidOut (fun next => Layout.loop f next) (fun x y => ∃ n, Times r n x y) := by
  intro next steps
  obtain ⟨body, added, hrun, hleads⟩ := hf steps.size (steps.push (.fork next next))
  refine ⟨steps.size, #[.fork body next] ++ added, ?_, ?_⟩
  · have hset : (steps.push (.fork next next) ++ added).setIfInBounds steps.size (.fork body next) =
        steps ++ (#[.fork body next] ++ added) := by
      rw [Array.setIfInBounds_append_left (by simp), ← Array.append_singleton,
        Array.setIfInBounds_append_right (Nat.le_refl _), Nat.sub_self, ← Array.append_assoc]
      rfl
    change (f steps.size >>= fun body => do
      modify fun steps' => steps'.setIfInBounds steps.size (.fork body next)
      return steps.size).run (steps.push (.fork next next)) = _
    rw [StateT.run_bind, hrun, ← hset]
    rfl
  · intro m hm
    obtain ⟨hfork, hadded⟩ := Machine.has_append.1 hm
    exact leads_loop (Machine.has_singleton.1 hfork) (hleads m (by simpa using hadded))

/-- Something is laid out some number of times. -/
theorem times (hf : LaidOut f r) (n : Nat) : LaidOut (Layout.times n f) (Times r n) := by
  induction n with
  | zero => exact pure
  | succ n ih =>
    rw [times_add, times_one]
    exact ih.comp hf

/-- A way to a step `next` and one through something to a step behind it are laid out. -/
theorem optional (hf : LaidOut f r) (next : Nat) (i : Nat) (steps : Array Step) :
    ∃ first added, (do Layout.add (.fork (← f i) next)).run steps = (first, steps ++ added) ∧
      ∀ m : Machine, m.Has steps.size added → ∀ r', Leads m r' i next →
        Leads m (fun x y => Comp r r' x y ∨ x = y) first next := by
  obtain ⟨body, added, hrun, hleads⟩ := hf i steps
  refine ⟨steps.size + added.size, added ++ #[.fork body next], ?_, ?_⟩
  · rw [StateT.run_bind, hrun, ← Array.size_append, ← Array.append_assoc, Array.append_singleton]
    rfl
  · intro m hm r' hr'
    obtain ⟨hadded, hfork⟩ := Machine.has_append.1 hm
    exact leads_fork (Machine.has_singleton.1 hfork) ((hleads m hadded).comp hr') leads_eq

/-- Something is laid out up to some number of times, each time with a way to the same next step. -/
theorem upTo (hf : LaidOut f r) (n : Nat) :
    LaidOut (fun next => Layout.times n (fun i => do Layout.add (.fork (← f i) next)) next)
      (UpTo r n) := by
  -- What has been laid out already leads from a step `i` on, up to `c` times.
  suffices h : ∀ n next i steps, ∃ first added,
      (Layout.times n (fun i => do Layout.add (.fork (← f i) next)) i).run steps =
        (first, steps ++ added) ∧
      ∀ m : Machine, m.Has steps.size added → ∀ c, Leads m (UpTo r c) i next →
        Leads m (UpTo r (c + n)) first next by
    intro next steps
    obtain ⟨first, added, hrun, hleads⟩ := h n next next steps
    refine ⟨first, added, hrun, fun m hm => ?_⟩
    have hzero : Leads m (UpTo r 0) next next := upTo_zero r ▸ leads_eq
    simpa using hleads m hm 0 hzero
  intro n
  induction n with
  | zero =>
    intro next i steps
    exact ⟨i, #[], by rw [Array.append_empty]; rfl, fun m _ c h => h⟩
  | succ n ih =>
    intro next i steps
    obtain ⟨middle, added, hrun, hleads⟩ := hf.optional next i steps
    obtain ⟨first, added', hrun', hleads'⟩ := ih next middle (steps ++ added)
    refine ⟨first, added ++ added', ?_, ?_⟩
    · rw [Layout.times, StateT.run_bind, hrun, ← Array.append_assoc]
      exact hrun'
    · intro m hm c hc
      obtain ⟨hadded, hadded'⟩ := Machine.has_append.1 hm
      have hmiddle : Leads m (UpTo r (c + 1)) middle next := by
        rw [upTo_succ]
        exact hleads m hadded _ hc
      have hfirst := hleads' m (by simpa using hadded') (c + 1) hmiddle
      rwa [Nat.add_right_comm, Nat.add_assoc] at hfirst

end LaidOut

theorem laidOut_text (cs : List Char) :
    LaidOut (fun next => cs.foldrM (fun c next => Layout.add (.char c next)) next) (Over cs) := by
  induction cs with
  | nil =>
    have hover : Over [] = Eq := by
      funext x y
      exact propext over_nil
    rw [hover]
    exact .pure
  | cons c cs ih =>
    have hover : Over (c :: cs) = Comp (Over [c]) (Over cs) := by
      funext x y
      exact propext over_cons
    rw [hover]
    simp only [List.foldrM_cons]
    exact (LaidOut.add leads_char).comp ih

/-- **Layouts are right.** A pattern is laid out as steps that lead to what comes next as the pattern
does. -/
theorem laidOut_pattern (p : Pattern) : LaidOut (Layout.pattern p) p.Matches := by
  induction p with
  | skip => exact .pure
  | text cs => exact laidOut_text cs
  | one s => exact .add leads_one
  | check a => exact .add leads_check
  | seq p q ihp ihq => exact ihp.comp ihq
  | either p q ihp ihq => exact ihp.either ihq
  | repeated p least most ih =>
    cases most with
    | none =>
      rw [matches_repeated_none]
      exact (ih.times least).comp ih.loop
    | some most =>
      rw [matches_repeated_some]
      exact (ih.times least).comp (ih.upTo (most - least))
  | captured index p ih => exact ih

/-- The machine of a pattern finds it from a place on exactly if the pattern matches something there. -/
theorem finds_machine_iff {p : Pattern} {x : Place} :
    (∃ n, p.machine.Finds n p.machine.start x) ↔ ∃ y, p.Matches x y := by
  obtain ⟨first, added, hrun, hleads⟩ := laidOut_pattern p 0 #[.found]
  have hmachine : p.machine = ⟨#[.found] ++ added, first⟩ := by
    change Machine.mk ((Layout.pattern p 0).run #[.found]).2 ((Layout.pattern p 0).run #[.found]).1 = _
    rw [hrun]
  have hhas : p.machine.Has 0 (#[.found] ++ added) := by
    intro i _
    rw [hmachine, Nat.zero_add]
  obtain ⟨hfound, hadded⟩ := Machine.has_append.1 hhas
  have hleads' : Leads p.machine p.Matches p.machine.start 0 := by
    have hstart : p.machine.start = first := by rw [hmachine]
    rw [hstart]
    exact hleads p.machine (by simpa using hadded)
  constructor
  · rintro ⟨n, hn⟩
    obtain ⟨y, hy, -⟩ := hleads'.sound hn
    exact ⟨y, hy⟩
  · rintro ⟨y, hy⟩
    have hend : p.machine.Finds 0 0 y := .found (Machine.has_singleton.1 hfound)
    exact hleads'.complete hy hend

end ShaderFilter.Pattern
