import ShaderFilter.Pattern.Acceptance
import ShaderFilter.Proofs.Pattern.Meaning
import ShaderFilter.Proofs.Pattern.Search

/-!
# Patterns that are read

Whatever tree a text is read as, its ranges are not empty, its named sets are known ones and the greatest
number of turns is not below the least one (`Tree.proper_of_read`). What a reader gives is followed through
its steps (`Gives`): what is refused gives nothing, and what has been read of a bracket or of a group stays
proper as items and parts are added (`Contents.Proper`, `Body.Proper`). The loops over brackets and groups
are inductions on the bound of their steps.

So the pattern of a text matches what its tree says (`exists_tree_of_read`), and its machine finds just
that (`occursIn_read`).
-/

namespace ShaderFilter.Pattern

namespace Reader

variable {α β : Type}

/-- Whatever a reader gives is of some kind. -/
def Gives (r : Reader α) (P : α → Prop) : Prop := ∀ s a s', r.run s = .ok (a, s') → P a

variable {r : Reader α} {f : α → Reader β} {P : α → Prop} {Q : β → Prop} {a : α}

theorem Gives.bind (h : Gives r P) (hf : ∀ a, P a → Gives (f a) Q) : Gives (r >>= f) Q := by
  intro s b s' hb
  rw [StateT.run_bind, bind_eq_ok] at hb
  obtain ⟨⟨a, s₁⟩, ha, hb⟩ := hb
  exact hf a (h s a s₁ ha) s₁ b s' hb

theorem gives_any : Gives r fun _ => True := fun _ _ _ _ => trivial

theorem gives_pure (ha : P a) : Gives (pure a) P := by
  intro s b s' hb
  cases hb
  exact ha

theorem gives_throw (e : Mistake) : Gives (throw e : Reader α) P := nofun

theorem gives_refuse (cause : Cause) (start stop : Nat) :
    Gives (refuse cause start stop : Reader α) P := nofun

theorem gives_refuseHere (cause : Cause) : Gives (refuseHere cause : Reader α) P :=
  gives_any.bind fun _ _ => gives_any.bind fun _ _ => gives_refuse _ _ _

theorem gives_refuseNext (cause : Cause) : Gives (refuseNext cause : Reader α) P :=
  gives_any.bind fun _ _ => gives_any.bind fun _ _ => gives_refuse _ _ _

theorem Gives.andThen (hf : ∀ a, Gives (f a) Q) : Gives (r >>= f) Q := gives_any.bind fun a _ => hf a

/-- Behind a reader that gives nothing, whatever is read is of any kind. -/
theorem Gives.never (h : Gives r fun _ => False) : Gives (r >>= f) Q := h.bind fun _ h => h.elim

/-- The greatest number of turns is not below the least one. -/
theorem gives_count : Gives count fun turns => ∀ k, turns.2 = some k → turns.1 ≤ k := by
  unfold count
  refine .andThen fun start => .andThen fun ⟨least, most⟩ => ?_
  dsimp only
  split
  · exact .andThen fun _ => .never (gives_refuse _ _ _)
  · rename_i hle
    refine gives_pure fun k hk => ?_
    dsimp only at hk ⊢
    subst hk
    simpa using hle

/-- A range is not empty. -/
theorem gives_bracketRange (o : Opened) : Gives (bracketRange o) SetTree.Proper := by
  unfold bracketRange
  refine .andThen fun first => .andThen fun _ => .andThen fun next => ?_
  split
  · refine .andThen fun second => ?_
    split
    · split
      · exact gives_pure (.literal _)
      · exact gives_pure (.shorthand _ _)
      · exact gives_throw _
    · refine .andThen fun _ => .andThen fun next => ?_
      dsimp only
      split
      · exact .never (gives_refuse _ _ _)
      · refine .andThen fun last => .andThen fun a => .andThen fun b => ?_
        split
        · exact .never (gives_refuse _ _ _)
        · rename_i hle
          exact gives_pure (.range (Char.not_lt.1 hle))
  · exact gives_refuse _ _ _

/-! ### Brackets -/

/-- The sets that have been read in a bracket are proper. -/
structure Contents.Proper (x : Contents) : Prop where
  /-- The items of the union are. -/
  items : ∀ t ∈ x.items, t.Proper
  /-- The set in front of the union is. -/
  left : ∀ op t, x.left = some (op, t) → t.Proper

theorem Contents.proper_start (start : Nat) : Contents.Proper { start } := ⟨nofun, nofun⟩

theorem Contents.Proper.push {x : Contents} {t : SetTree} (hx : x.Proper) (ht : t.Proper) :
    (x.push t).Proper :=
  ⟨List.forall_mem_cons.2 ⟨ht, hx.items⟩, hx.left⟩

theorem Contents.Proper.union {x : Contents} (hx : x.Proper) : x.union.Proper := by
  unfold Contents.union
  split
  · rename_i t hitems
    exact hx.items t (by rw [hitems]; exact List.mem_cons_self)
  · exact .union _ fun t ht => hx.items t (List.mem_reverse.1 ht)
  · exact .empty _

theorem Contents.Proper.set {x : Contents} (hx : x.Proper) : x.set.Proper := by
  unfold Contents.set
  split
  · exact hx.union
  · rename_i op left hleft
    exact .combined op (hx.left op left hleft) hx.union

theorem gives_minusSigns (start n : Nat) {x : Contents} (hx : x.Proper) :
    Gives (minusSigns start x n) Contents.Proper := by
  induction n generalizing x with
  | zero => exact gives_pure hx
  | succ n ih =>
    unfold minusSigns
    refine .andThen fun next => ?_
    split
    · exact gives_pure hx
    · refine .andThen fun l => .andThen fun _ => .andThen fun next => ?_
      dsimp only
      split
      · exact .never (gives_refuse _ _ _)
      · exact ih (hx.push (.literal l))

theorem gives_firstItems (start : Nat) : Gives (firstItems start) Contents.Proper := by
  unfold firstItems
  refine .andThen fun _ => .andThen fun _ => ?_
  refine (gives_minusSigns _ _ (Contents.proper_start _)).bind fun x hx => .andThen fun next => ?_
  split
  · refine .andThen fun l => .andThen fun _ => .andThen fun next => ?_
    dsimp only
    split
    · exact .andThen fun _ => .never (gives_refuse _ _ _)
    · exact gives_pure (hx.push (.literal l))
  · exact gives_pure hx

theorem gives_openBracket : Gives openBracket fun opened => opened.2.Proper := by
  unfold openBracket
  refine .andThen fun start => .andThen fun _ => .andThen fun next => ?_
  have hclose {α : Type} {P : α → Prop} :
      Gives (do refuse .bracketOpen start (← here)) P := .andThen fun _ => gives_refuse _ _ _
  split
  · dsimp only
    split
    · refine .andThen fun _ => .andThen fun next => ?_
      split
      · exact .never hclose
      · exact (gives_firstItems start).bind fun x hx => .andThen fun stop => gives_pure hx
    · exact (gives_firstItems start).bind fun x hx => .andThen fun stop => gives_pure hx
  · exact hclose

/-- A named set has ascending ranges. -/
theorem ascending_of_namedSet? {text rest : List Char} {negated : Bool} {u : CharSet}
    (h : namedSet? text = some (negated, u, rest)) : CharSet.Ascending u.ranges := by
  obtain ⟨_, -, h⟩ := Option.bind_eq_some_iff.1 h
  obtain ⟨v, hv, h⟩ := Option.bind_eq_some_iff.1 h
  obtain ⟨_, -, h⟩ := Option.bind_eq_some_iff.1 h
  cases h
  obtain ⟨front, back, hnamed, -⟩ := List.lookup_eq_some_iff.1 hv
  have hmem : ∃ name, (name, u) ∈ CharSet.named :=
    ⟨_, hnamed ▸ List.mem_append_right front List.mem_cons_self⟩
  obtain ⟨name, hmem⟩ := hmem
  exact CharSet.ascending_named (name, u) hmem

theorem gives_bracketRest (n : Nat) {around : List (Opened × Contents)} {o : Opened} {x : Contents}
    (haround : ∀ y ∈ around, y.2.Proper) (hx : x.Proper) :
    Gives (bracketRest around o x n) SetTree.Proper := by
  induction n generalizing around o x with
  | zero => exact gives_refuse _ _ _
  | succ n ih =>
    unfold bracketRest
    refine .andThen fun _ => .andThen fun s => ?_
    dsimp only
    split
    · exact gives_refuse _ _ _
    · refine .andThen fun _ => .andThen fun stop => ?_
      have hs : SetTree.Proper (.bracket o.negated x.set ⟨o.start, stop⟩) := .bracket _ _ hx.set
      split
      · exact gives_pure hs
      · obtain ⟨hy, haround⟩ := List.forall_mem_cons.1 haround
        exact ih haround (hy.push hs)
    · split
      · rename_i negated set rest hnamed
        exact .andThen fun start => .andThen fun _ => .andThen fun stop =>
          ih haround (hx.push (.named _ _ (ascending_of_namedSet? hnamed)))
      · exact gives_openBracket.bind fun opened hopened =>
          ih (List.forall_mem_cons.2 ⟨hx, haround⟩) hopened
    · split
      · rename_i sign op _
        refine .andThen fun _ => .andThen fun start => ih haround ⟨nofun, ?_⟩
        rintro _ _ ⟨⟩
        exact hx.set
      · exact (gives_bracketRange o).bind fun t ht => ih haround (hx.push ht)

theorem gives_bracket : Gives bracket SetTree.Proper := by
  unfold bracket
  exact gives_openBracket.bind fun _ hopened => .andThen fun _ => gives_bracketRest _ nofun hopened

/-! ### Groups -/

/-- The parts that have been read of a group are proper. -/
structure Body.Proper (b : Body) : Prop where
  /-- The parts of the sequence are. -/
  parts : ∀ part ∈ b.parts, part.2.Proper
  /-- The sequences in front of it are. -/
  choices : ∀ start ts, b.choices = some (start, ts) → ∀ t ∈ ts, t.Proper

theorem Body.proper_start (start : Nat) : Body.Proper { start } := ⟨nofun, nofun⟩

theorem Body.Proper.push {b : Body} {t : Tree} (hb : b.Proper) (start : Nat) (ht : t.Proper) :
    (b.push start t).Proper :=
  ⟨List.forall_mem_cons.2 ⟨ht, hb.parts⟩, hb.choices⟩

theorem Body.Proper.sequence {b : Body} (hb : b.Proper) (stop : Nat) : (b.sequence stop).Proper := by
  unfold Body.sequence
  split
  · exact .empty
  · rename_i start t hparts
    exact hb.parts (start, t) (by rw [hparts]; exact List.mem_cons_self)
  · refine .sequence _ fun t ht => ?_
    obtain ⟨part, hpart, rfl⟩ := List.mem_map.1 ht
    exact hb.parts part (List.mem_reverse.1 hpart)

theorem Body.Proper.tree {b : Body} (hb : b.Proper) (stop : Nat) : (b.tree stop).Proper := by
  unfold Body.tree
  split
  · exact hb.sequence stop
  · rename_i start ts hchoices
    refine .choice _ fun t ht => ?_
    obtain rfl | ht := List.mem_cons.1 (List.mem_reverse.1 ht)
    · exact hb.sequence stop
    · exact hb.choices start ts hchoices t ht

theorem Body.Proper.bar {b : Body} (hb : b.Proper) (stop : Nat) : (b.bar stop).Proper := by
  refine ⟨nofun, ?_⟩
  rintro start ts h t ht
  obtain ⟨-, rfl⟩ : _ ∧ b.sequence stop :: (b.choices.getD (b.start, [])).2 = ts :=
    Prod.mk.inj (Option.some.inj h)
  obtain rfl | ht := List.mem_cons.1 ht
  · exact hb.sequence stop
  · cases hchoices : b.choices with
    | none =>
      rw [hchoices] at ht
      cases ht
    | some choice =>
      rw [hchoices] at ht
      exact hb.choices choice.1 choice.2 hchoices t ht

theorem OpenGroup.proper_tree {g : OpenGroup} {t : Tree} (ht : t.Proper) (stop : Nat) :
    (g.tree t stop).Proper := by
  unfold OpenGroup.tree
  split
  · exact .captured _ _ ht
  · exact .group _ _ ht
  · exact .group _ _ ht

theorem gives_piece : Gives piece Tree.Proper := by
  unfold piece
  refine .andThen fun next => ?_
  split
  · split
    · refine .andThen fun read => ?_
      split
      · exact gives_pure (.literal _)
      · exact gives_pure (.shorthand _ _)
      · exact gives_pure (.mark _)
    · exact .andThen fun l => gives_pure (.dot _)
    · exact .andThen fun _ => gives_pure (.mark _)
    · exact .andThen fun _ => gives_pure (.mark _)
    · exact .andThen fun l => gives_pure (.literal _)
  · exact gives_refuseHere _

/-- The turns of a mark are not fewer than they must be. -/
theorem turns?_le {c : Char} {turns : Nat × Option Nat} (h : turns? c = some turns) :
    ∀ k, turns.2 = some k → turns.1 ≤ k := by
  obtain ⟨front, back, hmarks, -⟩ := List.lookup_eq_some_iff.1 h
  have hmem : (c, turns) ∈ [('?', (0, some 1)), ('*', (0, none)), ('+', (1, none))] := by
    rw [hmarks]
    simp
  simp only [List.mem_cons, Prod.mk.injEq, List.not_mem_nil, or_false] at hmem
  obtain ⟨-, rfl⟩ | ⟨-, rfl⟩ | ⟨-, rfl⟩ := hmem
  · rintro k -
    exact Nat.zero_le k
  · nofun
  · nofun

theorem gives_repetition (c : Char) {b : Body} (hb : b.Proper) : Gives (repetition c b) Body.Proper := by
  unfold repetition
  split
  · exact gives_refuseHere _
  · exact gives_refuseHere _
  · rename_i start t parts _ hparts
    obtain ⟨ht, hparts⟩ := List.forall_mem_cons.1 (hparts ▸ hb.parts)
    have hend (turns : Nat × Option Nat) (hle : ∀ k, turns.2 = some k → turns.1 ≤ k) : Gives (do
        let t : Tree := .repeated t turns.1 turns.2 ⟨start, ← here⟩
        return { b with parts := (start, t) :: parts }) Body.Proper :=
      .andThen fun stop => gives_pure
        ⟨List.forall_mem_cons.2 ⟨.repeated _ ht hle, hparts⟩, hb.choices⟩
    dsimp only
    split
    · rename_i turns hturns
      exact .andThen fun _ => .andThen fun _ => hend turns (turns?_le hturns)
    · exact gives_count.bind hend

/-- Whatever is read behind proper parts is proper. -/
theorem gives_parts (n : Nat) {around : List OpenGroup} {b : Body}
    (haround : ∀ g ∈ around, g.before.Proper) (hb : b.Proper) : Gives (parts around b n) Tree.Proper := by
  induction n generalizing around b with
  | zero => exact gives_pure (hb.tree 0)
  | succ n ih =>
    unfold parts
    refine .andThen fun _ => .andThen fun start => .andThen fun next => ?_
    split
    · split
      · exact gives_pure (hb.tree start)
      · exact gives_refuse _ _ _
    · split
      · exact gives_refuseNext _
      · rename_i g around
        obtain ⟨hg, haround⟩ := List.forall_mem_cons.1 haround
        exact .andThen fun _ => .andThen fun _ => .andThen fun stop =>
          ih haround (hg.push _ (OpenGroup.proper_tree (hb.tree start) stop))
    · exact .andThen fun _ => ih haround (hb.bar start)
    · refine .andThen fun s => .andThen fun head => ?_
      dsimp only
      split
      · exact .andThen fun _ => ih haround (hb.push start (.flags _))
      · exact .andThen fun _ => .andThen fun stop =>
          ih (List.forall_mem_cons.2 ⟨hb, haround⟩) (Body.proper_start _)
      · exact .andThen fun stop => ih (List.forall_mem_cons.2 ⟨hb, haround⟩) (Body.proper_start _)
    · exact gives_bracket.bind fun s hs => ih haround (hb.push start (.set hs))
    · split
      · exact (gives_repetition _ hb).bind fun b hb => ih haround hb
      · exact gives_piece.bind fun t ht => ih haround (hb.push start ht)

end Reader

open Reader

/-- A tree that is read is proper. -/
theorem Tree.proper_of_read {text : List Char} {t : Tree} (h : Tree.read text = .ok t) : t.Proper := by
  obtain ⟨⟨t', s⟩, ht', h⟩ := bind_eq_ok.1 h
  dsimp only at h
  split at h
  · cases h
  · cases h
    exact gives_parts _ (List.forall_mem_nil _) (Body.proper_start _) _ _ _ ht'

/-- **A text is read as a pattern that matches what its tree says.** -/
theorem exists_tree_of_read {text : String} {p : Pattern} (h : read text = .ok p) :
    ∃ t, Tree.read text.toList = .ok t ∧ p.Matches = t.Matches {} := by
  obtain ⟨t, ht, h⟩ := bind_eq_ok.1 h
  obtain ⟨⟨q, m⟩, hq, h⟩ := bind_eq_ok.1 h
  have hread : Tree.read text.toList = .ok t := mapError_eq_ok.1 ht
  dsimp only at h
  split at h
  · cases h
  · cases h
    exact ⟨t, hread, (Tree.pattern_spec (Tree.proper_of_read hread) (mapError_eq_ok.1 hq)).2.2⟩

/-- **What is searched for.** The machine of a pattern that is read finds something in a text if and only
if the tree of the pattern matches something in it. -/
theorem occursIn_read {text : String} {p : Pattern} (h : read text = .ok p) :
    ∃ t, Tree.read text.toList = .ok t ∧ ∀ message : String, p.machine.occursIn message ↔
      ∃ x y : Place, x.In message.toList ∧ t.Matches {} x y := by
  obtain ⟨t, ht, hmatches⟩ := exists_tree_of_read h
  refine ⟨t, ht, fun message => ?_⟩
  rw [occursIn_machine, OccursIn, hmatches]

end ShaderFilter.Pattern
