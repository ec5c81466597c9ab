import ShaderFilter.Proofs.Pattern.Layout

/-!
# Searching with machines

At each place of a text a machine looks at the steps that it has come to and at those that they lead to
without a character. What it has looked at is closed: whatever a step leads to has been looked at too, is
still to be looked at, or is kept for the next place (`Covered`). So once nothing is left to look at, nothing
can be found from the place that is not found from the steps for the next one; and all that is kept is come
to from the steps that the machine began with (`look_sound`, `look_covered`).

A search therefore finds the pattern of its machine exactly in the texts in which it occurs
(`occursIn_machine`).
-/

namespace ShaderFilter.Pattern

open Place

namespace Machine

/-- A step has been looked at, or there is none. -/
def Seen (m : Machine) (place : Nat) (places : Array Nat) (i : Nat) : Prop :=
  places.getD i 0 = place ∨ m.steps.size ≤ i

/-- What has been looked at is closed, up to what is still to be looked at and what is kept for the next
place. -/
structure Covered (m : Machine) (x : Place) (seen : Nat → Prop) (todo next : List Nat) : Prop where
  /-- The pattern has not been found. -/
  notFound : ∀ {i : Nat}, seen i → m.steps[i]? ≠ some .found
  /-- What is led to here. -/
  here : ∀ {i j : Nat} {s : Step}, seen i → m.steps[i]? = some s → j ∈ s.here x → seen j ∨ j ∈ todo
  /-- What is led to by the next character. -/
  there : ∀ {i j : Nat} {s : Step}, seen i → m.steps[i]? = some s → j ∈ s.there x → j ∈ next

variable {m : Machine} {x : Place}

/-- Once nothing is left to look at, what is found is found from a step for the next place. -/
theorem Covered.exists_next {seen : Nat → Prop} {next : List Nat} (h : m.Covered x seen [] next)
    {n i : Nat} (hi : seen i) (hfinds : m.Finds n i x) :
    ∃ c y, Over [c] x y ∧ ∃ j ∈ next, ∃ k, m.Finds k j y := by
  induction hfinds with
  | found hfound => exact absurd hfound (h.notFound hi)
  | pass hs hj _ ih =>
    obtain hseen | hnone := h.here hi hs hj
    · exact ih h hseen
    · cases hnone
  | take hs hj hover hnext => exact ⟨_, _, hover, _, h.there hi hs hj, _, hnext⟩

section

variable {place i : Nat} {todo next : List Nat} {places : Array Nat} {s : Step}

/-- What is looked at at a place. -/
abbrev lookAt (m : Machine) (x : Place) := m.look x.before.getLast? x.after.head?

/-- A step that has been looked at is not looked at again. -/
theorem look_of_seen (fuel : Nat) (h : places.getD i 0 = place) :
    m.lookAt x place (fuel + 1) (i :: todo) places next = m.lookAt x place fuel todo places next := by
  rw [lookAt, look, if_pos h]

/-- What is no step leads nowhere. -/
theorem look_of_none (fuel : Nat) (hnew : places.getD i 0 ≠ place) (h : m.steps[i]? = none) :
    m.lookAt x place (fuel + 1) (i :: todo) places next =
      m.lookAt x place fuel todo (places.setIfInBounds i place) next := by
  simp only [lookAt, look, if_neg hnew, h]

/-- Looking ends where the pattern has been found. -/
theorem look_of_found (fuel : Nat) (hnew : places.getD i 0 ≠ place) (h : m.steps[i]? = some .found) :
    m.lookAt x place (fuel + 1) (i :: todo) places next =
      ⟨true, places.setIfInBounds i place, next⟩ := by
  simp only [lookAt, look, if_neg hnew, h]

/-- Any other step adds to what is looked at and to what is kept. -/
theorem look_of_step (fuel : Nat) (hnew : places.getD i 0 ≠ place) (h : m.steps[i]? = some s)
    (hs : s ≠ .found) :
    m.lookAt x place (fuel + 1) (i :: todo) places next =
      m.lookAt x place fuel (s.here x ++ todo) (places.setIfInBounds i place) (s.there x ++ next) := by
  simp only [lookAt, look, if_neg hnew, h]
  cases s with
  | found => exact absurd rfl hs
  | char c j =>
    simp only [Step.here, Step.there]
    split <;> rfl
  | one s j =>
    simp only [Step.here, Step.there]
    split <;> rfl
  | check a j =>
    simp only [Step.here, Step.there]
    split <;> rfl
  | fork j k => rfl

end

/-- What is found from a step for the next place is found from this one. -/
def Keeps (m : Machine) (x : Place) (i j : Nat) : Prop :=
  ∀ {c : Char} {y : Place} {n : Nat}, Over [c] x y → m.Finds n j y → ∃ k, m.Finds k i x

/-- What has been come to, from steps to look at and with some steps kept already. -/
structure ComesFrom (m : Machine) (x : Place) (todo next : List Nat) (r : Reached) : Prop where
  /-- What has been found is found from a step to look at. -/
  found : r.found → ∃ i ∈ todo, ∃ n, m.Finds n i x
  /-- What is kept has been kept already, or comes from a step to look at. -/
  next : ∀ j ∈ r.next, j ∈ next ∨ ∃ i ∈ todo, m.Keeps x i j

theorem ComesFrom.cons {i : Nat} {todo next : List Nat} {r : Reached}
    (h : m.ComesFrom x todo next r) : m.ComesFrom x (i :: todo) next r where
  found hr := by
    obtain ⟨i', hi', hn⟩ := h.found hr
    exact ⟨i', .tail _ hi', hn⟩
  next j hj := (h.next j hj).imp_right fun ⟨i', hi', hk⟩ => ⟨i', .tail _ hi', hk⟩

/-- What comes from the steps that a step leads to comes from it. -/
theorem ComesFrom.step {i : Nat} {s : Step} {todo next : List Nat} {r : Reached}
    (hs : m.steps[i]? = some s) (h : m.ComesFrom x (s.here x ++ todo) (s.there x ++ next) r) :
    m.ComesFrom x (i :: todo) next r where
  found hr := by
    obtain ⟨j, hj, n, hn⟩ := h.found hr
    obtain hj | hj := List.mem_append.1 hj
    · exact ⟨i, .head _, _, .pass hs hj hn⟩
    · exact ⟨j, .tail _ hj, n, hn⟩
  next j hj := by
    obtain hj | ⟨i', hi', hk⟩ := h.next j hj
    · obtain hj | hj := List.mem_append.1 hj
      · exact .inr ⟨i, .head _, fun hover hn => ⟨_, .take hs hj hover hn⟩⟩
      · exact .inl hj
    · refine .inr ?_
      obtain hi' | hi' := List.mem_append.1 hi'
      · refine ⟨i, .head _, fun hover hn => ?_⟩
        obtain ⟨k, hk'⟩ := hk hover hn
        exact ⟨_, .pass hs hi' hk'⟩
      · exact ⟨i', .tail _ hi', hk⟩

/-- **Looking is sound.** What is found, and what is kept for the next place, is come to from the steps to
look at. -/
theorem look_sound (m : Machine) (x : Place) (place fuel : Nat) (todo : List Nat) (places : Array Nat)
    (next : List Nat) : m.ComesFrom x todo next (m.lookAt x place fuel todo places next) := by
  induction fuel generalizing todo places next with
  | zero => exact ⟨nofun, fun j hj => .inl hj⟩
  | succ fuel ih =>
    obtain _ | ⟨i, todo⟩ := todo
    · exact ⟨nofun, fun j hj => .inl hj⟩
    by_cases hnew : places.getD i 0 = place
    · rw [look_of_seen fuel hnew]
      exact (ih todo places next).cons
    cases hstep : m.steps[i]? with
    | none =>
      rw [look_of_none fuel hnew hstep]
      exact (ih todo _ next).cons
    | some s =>
      by_cases hs : s = .found
      · subst hs
        rw [look_of_found fuel hnew hstep]
        exact ⟨fun _ => ⟨i, .head _, 0, .found hstep⟩, fun j hj => .inl hj⟩
      · rw [look_of_step fuel hnew hstep hs]
        exact (ih _ _ _).step hstep

/-- How many steps have not been looked at. -/
def unseen (place : Nat) (places : Array Nat) : Nat := places.countP (· ≠ place)

/-- One step less is to be looked at once one is looked at. -/
theorem unseen_set {place i : Nat} {places : Array Nat} (hi : i < places.size)
    (hnew : places.getD i 0 ≠ place) :
    unseen place (places.setIfInBounds i place) + 1 = unseen place places := by
  have hget : places[i] ≠ place := by simpa [Array.getD, hi] using hnew
  have hle := Array.boole_getElem_le_countP (p := (· ≠ place)) hi
  rw [if_pos (by simpa using hget)] at hle
  rw [unseen, unseen, Array.setIfInBounds, dif_pos hi, Array.countP_set hi, if_pos (by simpa using hget),
    if_neg (by simp)]
  omega

theorem getD_set_le {place i : Nat} {places : Array Nat} (hle : ∀ j, places.getD j 0 ≤ place) (j : Nat) :
    (places.setIfInBounds i place).getD j 0 ≤ place := by
  have hj := hle j
  rw [Array.getD_eq_getD_getElem?] at hj ⊢
  rw [Array.getElem?_setIfInBounds]
  split
  · split <;> simp
  · exact hj

theorem seen_set {place i j : Nat} {places : Array Nat} (hsize : places.size = m.steps.size) :
    m.Seen place (places.setIfInBounds i place) j ↔ j = i ∨ m.Seen place places j := by
  unfold Seen
  by_cases hij : j = i
  · subst hij
    by_cases hj : j < places.size
    · simp [Array.getD, hj]
    · simp [← hsize, Nat.le_of_not_lt hj]
  · have : (places.setIfInBounds i place).getD j 0 = places.getD j 0 := by
      rw [Array.getD_eq_getD_getElem?, Array.getD_eq_getD_getElem?,
        Array.getElem?_setIfInBounds_ne (Ne.symm hij)]
    simp [this, hij]

/-- What has been looked at need not be looked at. -/
theorem Covered.drop {seen : Nat → Prop} {i : Nat} {todo next : List Nat}
    (h : m.Covered x seen (i :: todo) next) (hi : seen i) : m.Covered x seen todo next where
  notFound := h.notFound
  here {j k s} hj hs hk := by
    obtain hk | hk := h.here hj hs hk
    · exact .inl hk
    · obtain rfl | hk := List.mem_cons.1 hk
      · exact .inl hi
      · exact .inr hk
  there := h.there

/-- A step that is looked at is covered by what it leads to. -/
theorem Covered.insert {seen seen' : Nat → Prop} {i : Nat} {here there todo next : List Nat}
    (h : m.Covered x seen (i :: todo) next) (hseen : ∀ j, seen' j ↔ j = i ∨ seen j)
    (hfound : m.steps[i]? ≠ some .found)
    (hhere : ∀ s, m.steps[i]? = some s → s.here x = here)
    (hthere : ∀ s, m.steps[i]? = some s → s.there x = there) :
    m.Covered x seen' (here ++ todo) (there ++ next) where
  notFound {j} hj := by
    obtain rfl | hj := (hseen j).1 hj
    · exact hfound
    · exact h.notFound hj
  here {j k s} hj hs hk := by
    obtain rfl | hj := (hseen j).1 hj
    · exact .inr (List.mem_append_left _ (hhere s hs ▸ hk))
    · obtain hk | hk := h.here hj hs hk
      · exact .inl ((hseen k).2 (.inr hk))
      · obtain rfl | hk := List.mem_cons.1 hk
        · exact .inl ((hseen k).2 (.inl rfl))
        · exact .inr (List.mem_append_right _ hk)
  there {j k s} hj hs hk := by
    obtain rfl | hj := (hseen j).1 hj
    · exact List.mem_append_left _ (hthere s hs ▸ hk)
    · exact List.mem_append_right _ (h.there hj hs hk)

/-- What looking has come to if nothing was found: all is covered, and nothing is left to look at. -/
structure Closed (m : Machine) (x : Place) (place : Nat) (todo : List Nat) (places : Array Nat)
    (r : Reached) : Prop where
  /-- What has been looked at is covered by what is kept. -/
  covered : m.Covered x (m.Seen place r.places) [] r.next
  /-- What was to be looked at has been, and so has what had been before. -/
  seen : ∀ i, i ∈ todo ∨ m.Seen place places i → m.Seen place r.places i
  /-- There is a number for each step. -/
  size : r.places.size = m.steps.size
  /-- No number is beyond that of the place. -/
  le : ∀ i, r.places.getD i 0 ≤ place

theorem Closed.mono {place : Nat} {todo todo' : List Nat} {places places' : Array Nat} {r : Reached}
    (h : m.Closed x place todo' places' r)
    (hle : ∀ i, i ∈ todo ∨ m.Seen place places i → i ∈ todo' ∨ m.Seen place places' i) :
    m.Closed x place todo places r :=
  { h with seen := fun i hi => h.seen i (hle i hi) }

/-- **Looking is complete.** If nothing was found, all that the steps to look at lead to has been looked at,
and what it leads to by the next character is kept. -/
theorem look_covered (m : Machine) (x : Place) {place fuel : Nat} {todo : List Nat} {places : Array Nat}
    {next : List Nat} (hsize : places.size = m.steps.size) (hle : ∀ i, places.getD i 0 ≤ place)
    (hfuel : todo.length + 2 * unseen place places ≤ fuel)
    (hcovered : m.Covered x (m.Seen place places) todo next)
    (hnone : (m.lookAt x place fuel todo places next).found = false) :
    m.Closed x place todo places (m.lookAt x place fuel todo places next) := by
  induction fuel generalizing todo places next with
  | zero =>
    obtain rfl : todo = [] := List.eq_nil_of_length_eq_zero (by omega)
    exact ⟨hcovered, fun i hi => hi.resolve_left nofun, hsize, hle⟩
  | succ fuel ih =>
    obtain _ | ⟨i, todo⟩ := todo
    · exact ⟨hcovered, fun i hi => hi.resolve_left nofun, hsize, hle⟩
    rw [List.length_cons] at hfuel
    have hold (hi : m.Seen place places i) (j : Nat) (hj : j ∈ i :: todo ∨ m.Seen place places j) :
        j ∈ todo ∨ m.Seen place places j := by
      obtain hj | hj := hj
      · obtain rfl | hj := List.mem_cons.1 hj
        · exact .inr hi
        · exact .inl hj
      · exact .inr hj
    by_cases hnew : places.getD i 0 = place
    · rw [look_of_seen fuel hnew] at hnone ⊢
      exact (ih hsize hle (by omega) (hcovered.drop (.inl hnew)) hnone).mono (hold (.inl hnew))
    cases hstep : m.steps[i]? with
    | none =>
      have hi : m.steps.size ≤ i := Array.getElem?_eq_none_iff.1 hstep
      rw [look_of_none fuel hnew hstep, Array.setIfInBounds_eq_of_size_le (hsize ▸ hi)] at hnone ⊢
      exact (ih hsize hle (by omega) (hcovered.drop (.inr hi)) hnone).mono (hold (.inr hi))
    | some s =>
      by_cases hs : s = .found
      · subst hs
        rw [look_of_found fuel hnew hstep] at hnone
        cases hnone
      · have hi : i < places.size := by
          rw [hsize]
          exact (Array.getElem?_eq_some_iff.1 hstep).1
        have hunseen := unseen_set hi hnew
        have hlength : (s.here x).length ≤ 2 := s.length_here_le x
        rw [look_of_step fuel hnew hstep hs] at hnone ⊢
        refine (ih (by simpa using hsize) (getD_set_le hle) ?_ ?_ hnone).mono ?_
        · rw [List.length_append]
          omega
        · exact hcovered.insert (fun j => seen_set hsize) (by simpa [hstep] using hs) (by simp [hstep])
            (by simp [hstep])
        · intro j hj
          rw [seen_set hsize]
          obtain hj | hj := hj
          · obtain rfl | hj := List.mem_cons.1 hj
            · exact .inr (.inl rfl)
            · exact .inl (List.mem_append_right _ hj)
          · exact .inr (.inr hj)

/-! ### The whole text -/

/-- What is to be found in the rest of a text: the pattern from some steps at a place, or from the first step
at this place or at a later one. -/
def Ahead (m : Machine) (x : Place) (todo : List Nat) : Prop :=
  (∃ i ∈ todo, ∃ n, m.Finds n i x) ∨ ∃ cs y, Over cs x y ∧ ∃ n, m.Finds n m.start y

/-- What is found from a step that is looked at at a place is ahead of it. -/
theorem ahead_of_finds {todo : List Nat} {i n : Nat} (hi : i ∈ m.start :: todo)
    (hfinds : m.Finds n i x) : m.Ahead x todo := by
  obtain rfl | hi := List.mem_cons.1 hi
  · exact .inr ⟨[], x, over_nil.2 rfl, n, hfinds⟩
  · exact .inl ⟨i, hi, n, hfinds⟩

/-- What is ahead is found here, or is ahead of the next place. -/
theorem Ahead.cases {todo : List Nat} (h : m.Ahead x todo) :
    (∃ i ∈ m.start :: todo, ∃ n, m.Finds n i x) ∨
      ∃ c y, Over [c] x y ∧ ∃ cs z, Over cs y z ∧ ∃ n, m.Finds n m.start z := by
  obtain ⟨i, hi, hfinds⟩ | ⟨cs, z, hover, hfinds⟩ := h
  · exact .inl ⟨i, .tail _ hi, hfinds⟩
  · obtain _ | ⟨c, cs⟩ := cs
    · obtain rfl := over_nil.1 hover
      exact .inl ⟨m.start, .head _, hfinds⟩
    · obtain ⟨y, hy, hz⟩ := over_cons.1 hover
      exact .inr ⟨c, y, hy, cs, z, hz, hfinds⟩

/-- What is ahead of a place where nothing is found is ahead of the next one, with the steps that have been
kept. -/
theorem Closed.ahead_iff {c : Char} {y : Place} {place : Nat} {todo : List Nat} {places : Array Nat}
    {r : Reached} (h : m.Closed x place (m.start :: todo) places r)
    (hsound : m.ComesFrom x (m.start :: todo) [] r) (hover : Over [c] x y) :
    m.Ahead x todo ↔ m.Ahead y r.next := by
  have hnext {c' : Char} {y' : Place} (hover' : Over [c'] x y') : y' = y := by
    obtain ⟨cs, hcs, rfl⟩ := over_singleton.1 hover
    obtain ⟨cs', hcs', rfl⟩ := over_singleton.1 hover'
    obtain ⟨rfl, rfl⟩ := List.cons.inj (hcs.symm.trans hcs')
    rfl
  constructor
  · intro hahead
    obtain ⟨i, hi, n, hfinds⟩ | ⟨c', y', hover', hfinds⟩ := hahead.cases
    · obtain ⟨c', y', hover', j, hj, hfinds⟩ := h.covered.exists_next (h.seen i (.inl hi)) hfinds
      exact .inl ⟨j, hj, hnext hover' ▸ hfinds⟩
    · exact .inr (hnext hover' ▸ hfinds)
  · rintro (⟨j, hj, n, hfinds⟩ | ⟨cs, z, hover', hfinds⟩)
    · obtain hj | ⟨i, hi, hkeeps⟩ := hsound.next j hj
      · cases hj
      · obtain ⟨k, hk⟩ := hkeeps hover hfinds
        exact ahead_of_finds hi hk
    · exact .inr ⟨c :: cs, z, over_cons.2 ⟨y, hover, hover'⟩, hfinds⟩

/-- Where nothing has been looked at yet, looking from some steps on is complete. -/
theorem closed_look (m : Machine) (x : Place) {place : Nat} (todo : List Nat) {places : Array Nat}
    (hsize : places.size = m.steps.size) (hlt : ∀ i, places.getD i 0 < place)
    (hnone : (m.lookAt x place (todo.length + 2 * m.steps.size) todo places []).found = false) :
    m.Closed x place todo places
      (m.lookAt x place (todo.length + 2 * m.steps.size) todo places []) := by
  have hunseen : unseen place places ≤ m.steps.size := hsize ▸ Array.countP_le_size
  have hseen {i : Nat} (hi : m.Seen place places i) : m.steps[i]? = none :=
    Array.getElem?_eq_none (hi.resolve_left (Nat.ne_of_lt (hlt i)))
  refine look_covered m x hsize (fun i => Nat.le_of_lt (hlt i)) (by omega) ⟨?_, ?_, ?_⟩ hnone
  · intro i hi
    simp [hseen hi]
  · intro i j s hi hs
    simp [hseen hi] at hs
  · intro i j s hi hs
    simp [hseen hi] at hs

/-- **A search is right.** It finds what is ahead. -/
theorem searchFrom_iff (m : Machine) {place : Nat} {before after : List Char} {todo : List Nat}
    {places : Array Nat} (hsize : places.size = m.steps.size) (hlt : ∀ i, places.getD i 0 < place) :
    m.searchFrom before.getLast? place todo places after ↔ m.Ahead ⟨before, after⟩ todo := by
  induction after generalizing before place todo places with
  | nil =>
    have hsound := look_sound m ⟨before, []⟩ place ((m.start :: todo).length + 2 * m.steps.size)
      (m.start :: todo) places []
    have hclosed := closed_look m ⟨before, []⟩ (m.start :: todo) hsize hlt
    rw [searchFrom, Bool.or_false]
    constructor
    · intro hfound
      obtain ⟨i, hi, n, hfinds⟩ := hsound.found hfound
      exact ahead_of_finds hi hfinds
    · intro hahead
      refine Bool.of_not_eq_false fun hnone => ?_
      have h := hclosed hnone
      obtain ⟨i, hi, n, hfinds⟩ | ⟨c, y, hover, -⟩ := hahead.cases
      · obtain ⟨c, y, hover, -⟩ := h.covered.exists_next (h.seen i (.inl hi)) hfinds
        cases hover.1
      · cases hover.1
  | cons c after ih =>
    have hsound := look_sound m ⟨before, c :: after⟩ place ((m.start :: todo).length + 2 * m.steps.size)
      (m.start :: todo) places []
    have hclosed := closed_look m ⟨before, c :: after⟩ (m.start :: todo) hsize hlt
    have hover : Over [c] ⟨before, c :: after⟩ ⟨before ++ [c], after⟩ := ⟨rfl, rfl⟩
    rw [searchFrom, Bool.or_eq_true]
    by_cases hfound : (m.lookAt ⟨before, c :: after⟩ place
        ((m.start :: todo).length + 2 * m.steps.size) (m.start :: todo) places []).found
    · obtain ⟨i, hi, n, hfinds⟩ := hsound.found hfound
      exact iff_of_true (.inl hfound) (ahead_of_finds hi hfinds)
    · have h := hclosed (Bool.eq_false_iff.2 hfound)
      rw [or_iff_right hfound, h.ahead_iff hsound hover,
        ← ih h.size fun i => Nat.lt_succ_of_le (h.le i), List.getLast?_concat]

theorem occursIn_iff {m : Machine} {text : String} :
    m.occursIn text ↔ ∃ x : Place, x.In text.toList ∧ ∃ n, m.Finds n m.start x := by
  have hlt (i : Nat) : (Array.replicate m.steps.size 0).getD i 0 < 1 := by simp [Array.getD]
  rw [occursIn, ← List.getLast?_nil, searchFrom_iff m Array.size_replicate hlt]
  constructor
  · rintro (⟨i, hi, -⟩ | ⟨cs, y, hover, hfinds⟩)
    · cases hi
    · exact ⟨y, hover.in_iff.1 rfl, hfinds⟩
  · rintro ⟨y, hy, hfinds⟩
    exact .inr ⟨y.before, y, ⟨hy.symm, rfl⟩, hfinds⟩

end Machine

/-- **Searching is right.** The machine of a pattern finds it in exactly the texts in which it occurs. -/
theorem occursIn_machine {p : Pattern} {text : String} :
    p.machine.occursIn text ↔ p.OccursIn text.toList := by
  rw [Machine.occursIn_iff, OccursIn]
  simp only [finds_machine_iff]
  constructor
  · rintro ⟨x, hx, y, h⟩
    exact ⟨x, y, hx, h⟩
  · rintro ⟨x, y, hx, h⟩
    exact ⟨x, hx, y, h⟩

end ShaderFilter.Pattern
