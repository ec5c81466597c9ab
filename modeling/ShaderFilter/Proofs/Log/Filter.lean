import ShaderFilter.Log.Filter
import ShaderFilter.Proofs.Literal
import ShaderFilter.Proofs.Pattern.Search
import ShaderFilter.Proofs.Text.Fields
import Mathlib.Data.List.Induction

/-!
# Log filters

A rule of a log filter is written as a limit, as a name, or as both (`Rule.Written`), and what is written for
no rule is complained about. Of the rules for the same targets only the last one is kept (`mem_entered`).

For a target the rule with the longest name decides of those whose name the target starts with, and the last
one of them if there are several (`Decides`). A record is shown if the rule that decides for its part
allows its level, and if the pattern of the filter occurs in its message (`shows_read_iff`). What the pattern
of a text matches is told by the tree that the text is read as (`Pattern.occursIn_read`).
-/

namespace ShaderFilter.Log

/-! ### Rules -/

namespace Rule

/-- A rule is for the targets that start with its name, or for all if it has none. -/
theorem covers_iff {r : Rule} {target : String} :
    r.covers target ↔ ∀ name, r.target = some name → name.toList <+: target.toList := by
  cases h : r.target <;> simp [covers, h]

/-- A text is written for a rule. -/
inductive Written : String → Rule → Prop where
  /-- A limit for all targets. -/
  | limit {word : String} {n : Nat} : '=' ∉ word.toList → (Text.lower word, n) ∈ limits →
      Written word ⟨none, n⟩
  /-- A name of which everything is shown. -/
  | name {name : String} : '=' ∉ name.toList → (∀ n, (Text.lower name, n) ∉ limits) →
      Written name ⟨some name, 5⟩
  /-- A name with nothing behind the equals sign. -/
  | everything {name rest : String} : '=' ∉ name.toList → '=' ∉ rest.toList →
      trimmed rest.toList = "" → Written (name ++ "=" ++ rest) ⟨some name, 5⟩
  /-- A name with a limit behind the equals sign. -/
  | both {name rest : String} {n : Nat} : '=' ∉ name.toList → '=' ∉ rest.toList →
      (Text.lower (trimmed rest.toList), n) ∈ limits → Written (name ++ "=" ++ rest) ⟨some name, n⟩

theorem keyword?_limits {word : String} {n : Nat} :
    Text.keyword? limits word = some n ↔ (Text.lower word, n) ∈ limits :=
  Text.keyword?_eq_some (by decide)

theorem pieces_name_rest {name rest : String} (hname : '=' ∉ name.toList) (hrest : '=' ∉ rest.toList) :
    Text.pieces '=' (name ++ "=" ++ rest).toList = [name.toList, rest.toList] :=
  Text.pieces_eq_pair.2 ⟨hname, hrest, by simp [String.toList_append]⟩

/-- The words for limits are not empty. -/
theorem trimmed_ne_of_mem_limits {word : String} {n : Nat} (h : (Text.lower word, n) ∈ limits) :
    word ≠ "" := by
  rintro rfl
  have hwords : ∀ entry ∈ limits, entry.1 ≠ Text.lower "" := by decide
  exact hwords _ h rfl

/-- A rule is read from the texts that are written for it. -/
theorem read_eq_ok {s : String} {r : Rule} : read s = .ok r ↔ Written s r := by
  constructor
  · intro h
    rw [read] at h
    split at h
    · rename_i word hword
      obtain ⟨hmem, rfl⟩ := Text.pieces_eq_singleton.1 hword
      rw [String.ofList_toList] at h
      split at h
      · rename_i n hn
        cases h
        exact .limit hmem (keyword?_limits.1 hn)
      · rename_i hnone
        cases h
        exact .name hmem fun n hn => by simp [keyword?_limits.2 hn] at hnone
    · rename_i name rest hpair
      obtain ⟨hname, hrest, heq⟩ := Text.pieces_eq_pair.1 hpair
      have hs : s = String.ofList name ++ "=" ++ String.ofList rest := by
        rw [← String.toList_inj, heq]
        simp [String.toList_append]
      rw [← String.toList_ofList (l := name)] at hname
      rw [← String.toList_ofList (l := rest)] at hrest h
      subst hs
      split at h
      · rename_i hblank
        cases h
        exact .everything hname hrest hblank
      · split at h
        · rename_i n hn
          cases h
          exact .both hname hrest (keyword?_limits.1 hn)
        · cases h
    · cases h
  · intro h
    cases h with
    | limit hmem hn =>
      simp [read, Text.pieces_eq_singleton.2 ⟨hmem, rfl⟩, keyword?_limits.2 hn]
    | name hmem hnone =>
      have hkeyword : Text.keyword? limits s = none :=
        Option.eq_none_iff_forall_ne_some.2 fun n hn => hnone n (keyword?_limits.1 hn)
      simp [read, Text.pieces_eq_singleton.2 ⟨hmem, rfl⟩, hkeyword]
    | everything hname hrest hblank =>
      rw [read, pieces_name_rest hname hrest]
      simp [hblank]
    | both hname hrest hn =>
      rw [read, pieces_name_rest hname hrest]
      simp [trimmed_ne_of_mem_limits hn, keyword?_limits.2 hn]

end Rule

/-! ### The rules that are kept -/

/-- Of some rules, one is the last one for its targets. -/
def Last (rules : List Rule) (r : Rule) : Prop :=
  ∃ front back, rules = front ++ r :: back ∧ ∀ q ∈ back, q.target ≠ r.target

theorem last_snoc {rules : List Rule} {q r : Rule} :
    Last (rules ++ [r]) q ↔ q = r ∨ q.target ≠ r.target ∧ Last rules q := by
  constructor
  · rintro ⟨front, back, heq, hback⟩
    induction back using List.reverseRecOn with
    | nil =>
      obtain ⟨-, h⟩ := List.append_inj' heq rfl
      cases h
      exact .inl rfl
    | append_singleton back r' _ =>
      have heq' : rules ++ [r] = front ++ q :: back ++ [r'] := by
        rw [heq, List.append_assoc, List.cons_append]
      obtain ⟨rfl, h⟩ := List.append_inj' heq' rfl
      cases h
      obtain ⟨hback, hne⟩ := List.forall_mem_append.1 hback
      exact .inr ⟨(hne r (List.mem_singleton_self r)).symm, front, back, rfl, hback⟩
  · rintro (rfl | ⟨hne, front, back, rfl, hback⟩)
    · exact ⟨rules, [], rfl, nofun⟩
    · refine ⟨front, back ++ [r], by simp, fun r' hr' => ?_⟩
      obtain hr' | hr' := List.mem_append.1 hr'
      · exact hback r' hr'
      · exact List.mem_singleton.1 hr' ▸ hne.symm

/-- No two rules are for the same targets. -/
def Apart (rules : List Rule) : Prop := rules.Pairwise fun q r => q.target ≠ r.target

/-- A rule that is entered takes the place of the one for the same targets. -/
theorem mem_enter {rules : List Rule} {r : Rule} (h : Apart rules) {q : Rule} :
    q ∈ r.enter rules ↔ q = r ∨ q.target ≠ r.target ∧ q ∈ rules := by
  induction rules with
  | nil => simp [Rule.enter]
  | cons q' rules ih =>
    obtain ⟨hq', h⟩ := List.pairwise_cons.1 h
    rw [Rule.enter]
    split
    · rename_i heq
      rw [List.mem_cons, List.mem_cons]
      constructor
      · rintro (rfl | hq)
        · exact .inl rfl
        · exact .inr ⟨heq ▸ (hq' q hq).symm, .inr hq⟩
      · rintro (rfl | ⟨hne, rfl | hq⟩)
        · exact .inl rfl
        · exact absurd heq hne
        · exact .inr hq
    · rename_i hne
      rw [List.mem_cons, List.mem_cons, ih h]
      constructor
      · rintro (rfl | rfl | ⟨hne', hq⟩)
        · exact .inr ⟨hne, .inl rfl⟩
        · exact .inl rfl
        · exact .inr ⟨hne', .inr hq⟩
      · rintro (rfl | ⟨hne', rfl | hq⟩)
        · exact .inr (.inl rfl)
        · exact .inl rfl
        · exact .inr (.inr ⟨hne', hq⟩)

theorem Apart.enter {rules : List Rule} (h : Apart rules) (r : Rule) : Apart (r.enter rules) := by
  induction rules with
  | nil => exact List.pairwise_singleton _ _
  | cons q rules ih =>
    obtain ⟨hq, h⟩ := List.pairwise_cons.1 h
    rw [Rule.enter]
    split
    · rename_i heq
      exact List.pairwise_cons.2 ⟨fun q' hq' => heq ▸ hq q' hq', h⟩
    · rename_i hne
      refine List.pairwise_cons.2 ⟨fun q' hq' => ?_, ih h⟩
      obtain rfl | ⟨-, hq'⟩ := (mem_enter h).1 hq'
      · exact hne
      · exact hq q' hq'

/-- The last rules for their targets are kept. -/
theorem mem_entered (rules : List Rule) :
    Apart (rules.foldl (fun kept r => r.enter kept) []) ∧
      ∀ r, r ∈ rules.foldl (fun kept r => r.enter kept) [] ↔ Last rules r := by
  induction rules using List.reverseRecOn with
  | nil => exact ⟨.nil, fun r => ⟨nofun, by rintro ⟨_ | _, _, h, -⟩ <;> cases h⟩⟩
  | append_singleton rules r ih =>
    obtain ⟨hapart, hmem⟩ := ih
    rw [List.foldl_append, List.foldl_cons, List.foldl_nil]
    refine ⟨hapart.enter r, fun q => ?_⟩
    rw [mem_enter hapart, hmem, last_snoc]

/-- The texts of the rules of a filter. -/
def ruleTexts (text : List Char) : List String :=
  ((Text.pieces ',' text).map Rule.trimmed).filter (· ≠ "")

/-- What is complained about in the text of a rule. -/
def complaint? (s : String) : Option Complaint :=
  match Rule.read s with
  | .ok _ => none
  | .error c => some c

/-- Rules are read one after the other: complaints are collected, and rules entered. -/
theorem readRules_eq (text : List Char) :
    Filter.readRules text = ((ruleTexts text).filterMap complaint?,
      let rules := ((ruleTexts text).filterMap fun s => (Rule.read s).toOption).foldl
        (fun kept r => r.enter kept) []
      if rules = [] then [⟨none, 1⟩] else rules) := by
  have hfold (texts : List String) (complaints : List Complaint) (kept : List Rule) :
      texts.foldl (fun taken text => Filter.takeText taken.1 taken.2 text) (complaints, kept) =
      (complaints ++ texts.filterMap complaint?,
        (texts.filterMap fun s => (Rule.read s).toOption).foldl (fun kept r => r.enter kept) kept) := by
    induction texts generalizing complaints kept with
    | nil => simp
    | cons s texts ih =>
      rw [List.foldl_cons, Filter.takeText, List.filterMap_cons, List.filterMap_cons, complaint?]
      cases Rule.read s <;> simp [ih, Except.toOption]
  exact congrArg (fun read : List Complaint × List Rule =>
    (read.1, if read.2 = [] then [⟨none, 1⟩] else read.2)) (hfold (ruleTexts text) [] [])

/-- The rules of a filter are the last ones that are written for their targets; without any, errors are
shown. -/
theorem readRules_spec (text : List Char) :
    ∃ rules : List Rule, rules = (ruleTexts text).filterMap (fun s => (Rule.read s).toOption) ∧
      Apart (Filter.readRules text).2 ∧
      ∀ r, r ∈ (Filter.readRules text).2 ↔ Last rules r ∨ rules = [] ∧ r = ⟨none, 1⟩ := by
  refine ⟨_, rfl, ?_⟩
  rw [readRules_eq]
  generalize (ruleTexts text).filterMap (fun s => (Rule.read s).toOption) = rules
  obtain ⟨hapart, hmem⟩ := mem_entered rules
  dsimp only
  split
  · rename_i hnil
    have hnone (r : Rule) : ¬ Last rules r := by
      rw [← hmem, hnil]
      exact List.not_mem_nil
    have hrules : rules = [] := by
      obtain rfl | ⟨front, r, rfl⟩ := List.eq_nil_or_concat' rules
      · rfl
      · exact absurd (last_snoc.2 (.inl rfl)) (hnone r)
    refine ⟨List.pairwise_singleton _ _, fun r => ?_⟩
    rw [List.mem_singleton, or_iff_right (hnone r), and_iff_right hrules]
  · rename_i hne
    have hrules : rules ≠ [] := by
      rintro rfl
      exact hne rfl
    refine ⟨hapart, fun r => ?_⟩
    simp [hmem, hrules]

/-! ### The rule that decides -/

/-- A rule decides for a target: no other rule for it has a longer name, and no later one a name of the same
length. -/
def Decides (rules : List Rule) (target : String) (r : Rule) : Prop :=
  ∃ i, rules[i]? = some r ∧ r.covers target ∧ ∀ (j : Nat) q, rules[j]? = some q → q.covers target →
    q.nameLength ≤ r.nameLength ∧ (i < j → q.nameLength < r.nameLength)

/-- At most one rule decides. -/
theorem Decides.unique {rules : List Rule} {target : String} {r r' : Rule}
    (h : Decides rules target r) (h' : Decides rules target r') : r = r' := by
  obtain ⟨i, hi, hcovers, hlongest⟩ := h
  obtain ⟨i', hi', hcovers', hlongest'⟩ := h'
  obtain ⟨hle, hlt⟩ := hlongest i' r' hi' hcovers'
  obtain ⟨hle', hlt'⟩ := hlongest' i r hi hcovers
  obtain rfl : i = i' := by omega
  exact Option.some.inj (hi.symm.trans hi')

/-- Of rules with one more behind them, the last one decides if it is for the target and has no shorter
name than the one that decided before. -/
theorem decides_snoc {rules : List Rule} {r : Rule} {target : String} (hcovers : r.covers target)
    (h : ∀ q ∈ rules, q.covers target → q.nameLength ≤ r.nameLength) :
    Decides (rules ++ [r]) target r := by
  refine ⟨rules.length, by simp, hcovers, fun j q hj hq => ?_⟩
  rw [List.getElem?_append] at hj
  split at hj
  · exact ⟨h q (List.mem_of_getElem? hj) hq, fun hlt => by omega⟩
  · obtain ⟨hj, rfl⟩ : j - rules.length = 0 ∧ r = q := by simpa [List.getElem?_singleton] using hj
    exact ⟨Nat.le_refl _, fun hlt => by omega⟩

/-- A rule that decides still does with another one behind it that is not for the target or has a shorter
name. -/
theorem Decides.append {rules : List Rule} {r b : Rule} {target : String} (hb : Decides rules target b)
    (h : r.covers target → r.nameLength < b.nameLength) : Decides (rules ++ [r]) target b := by
  obtain ⟨i, hi, hcovers, hlongest⟩ := hb
  refine ⟨i, ?_, hcovers, fun j q hj hq => ?_⟩
  · rw [List.getElem?_append_left (List.getElem?_eq_some_iff.1 hi).1, hi]
  · rw [List.getElem?_append] at hj
    split at hj
    · exact hlongest j q hj hq
    · obtain ⟨-, rfl⟩ : j - rules.length = 0 ∧ r = q := by simpa [List.getElem?_singleton] using hj
      exact ⟨Nat.le_of_lt (h hq), fun _ => h hq⟩

theorem rule?_spec (f : Filter) (target : String) :
    (f.rule? target = none → ∀ q ∈ f.rules, ¬ q.covers target) ∧
      ∀ r, f.rule? target = some r → Decides f.rules target r := by
  obtain ⟨rules, pattern⟩ := f
  simp only [Filter.rule?]
  induction rules using List.reverseRecOn with
  | nil => exact ⟨nofun, nofun⟩
  | append_singleton rules r ih =>
    obtain ⟨hnone, hsome⟩ := ih
    rw [List.foldl_append, List.foldl_cons, List.foldl_nil]
    generalize rules.foldl _ none = best at hnone hsome ⊢
    by_cases hcovers : r.covers target
    · rw [if_pos hcovers]
      cases best with
      | none =>
        refine ⟨nofun, ?_⟩
        rintro _ ⟨⟩
        exact decides_snoc hcovers fun q hq hcovered => absurd hcovered (hnone rfl q hq)
      | some b =>
        have hb := hsome b rfl
        dsimp only
        split
        · rename_i hlt
          refine ⟨nofun, ?_⟩
          rintro _ ⟨⟩
          exact hb.append fun _ => hlt
        · rename_i hle
          refine ⟨nofun, ?_⟩
          rintro _ ⟨⟩
          obtain ⟨i, hi, -, hlongest⟩ := hb
          refine decides_snoc hcovers fun q hq hcovered => ?_
          obtain ⟨j, hj⟩ := List.mem_iff_getElem?.1 hq
          exact Nat.le_trans (hlongest j q hj hcovered).1 (Nat.le_of_not_lt hle)
    · rw [if_neg hcovers]
      refine ⟨fun h q hq => ?_, fun b hb => (hsome b hb).append fun h => absurd h hcovers⟩
      obtain hq | hq := List.mem_append.1 hq
      · exact hnone h q hq
      · exact List.mem_singleton.1 hq ▸ hcovers

theorem rule?_eq_some {f : Filter} {target : String} {r : Rule} :
    f.rule? target = some r ↔ Decides f.rules target r := by
  obtain ⟨hnone, hsome⟩ := rule?_spec f target
  constructor
  · exact hsome r
  · intro h
    cases hr : f.rule? target with
    | none =>
      obtain ⟨i, hi, hcovers, -⟩ := h
      exact absurd hcovers (hnone hr r (List.mem_of_getElem? hi))
    | some r' => rw [(hsome r' hr).unique h]

/-! ### Records that are shown -/

/-- A text is a filter with a pattern behind its rules. -/
def HasPattern (s : String) (p : Pattern) : Prop :=
  ∃ rules text, '/' ∉ rules.toList ∧ '/' ∉ text.toList ∧ s = rules ++ "/" ++ text ∧
    Pattern.read text = .ok p

theorem hasPattern_iff {s : String} {p : Pattern} :
    HasPattern s p ↔ ∃ rules text, Text.pieces '/' s.toList = [rules, text] ∧
      Pattern.read (String.ofList text) = .ok p := by
  constructor
  · rintro ⟨rules, text, hrules, htext, rfl, hread⟩
    refine ⟨rules.toList, text.toList, Text.pieces_eq_pair.2 ⟨hrules, htext, ?_⟩, ?_⟩
    · simp [String.toList_append]
    · rwa [String.ofList_toList]
  · rintro ⟨rules, text, hpieces, hread⟩
    obtain ⟨hrules, htext, hs⟩ := Text.pieces_eq_pair.1 hpieces
    refine ⟨String.ofList rules, String.ofList text, ?_, ?_, ?_, hread⟩
    · rwa [String.toList_ofList]
    · rwa [String.toList_ofList]
    · rw [← String.toList_inj, hs]
      simp [String.toList_append]

theorem read_pattern {s : String} {m : Pattern.Machine} :
    (Filter.read s).2.pattern = some m ↔ ∃ p, HasPattern s p ∧ m = p.machine := by
  simp only [hasPattern_iff]
  rw [Filter.read]
  split
  · rename_i rules hpieces
    simp [hpieces]
  · rename_i rules text hpieces
    simp only [hpieces, List.cons.injEq, and_true]
    cases hread : Pattern.read (String.ofList text) <;> simp [hread, eq_comm]
  · rename_i hone htwo
    simp only [reduceCtorEq, false_iff]
    rintro ⟨p, ⟨rules, text, hpieces, -⟩, -⟩
    exact htwo _ _ hpieces

/-- **What is shown.** The rule that decides for the part of a record allows its level, and the pattern of
the filter, if it has one, occurs in the message. -/
theorem shows_read_iff {s : String} {r : Record} :
    (Filter.read s).2.shows r ↔
      (∃ rule, Decides (Filter.read s).2.rules r.part.target rule ∧ r.level.number ≤ rule.limit) ∧
        ∀ p, HasPattern s p → p.OccursIn r.message.toList := by
  have hpattern : (Filter.read s).2.pattern.all (·.occursIn r.message) ↔
      ∀ p, HasPattern s p → p.OccursIn r.message.toList := by
    simp only [Option.all_eq_true, read_pattern]
    constructor
    · intro h p hp
      exact Pattern.occursIn_machine.1 (h _ ⟨p, hp, rfl⟩)
    · rintro h _ ⟨p, hp, rfl⟩
      exact Pattern.occursIn_machine.2 (h p hp)
  rw [← hpattern, Filter.shows]
  cases hrule : (Filter.read s).2.rule? r.part.target with
  | none =>
    have hnone : ∀ rule, ¬ Decides (Filter.read s).2.rules r.part.target rule := by
      intro rule h
      rw [← rule?_eq_some, hrule] at h
      cases h
    simp [hnone]
  | some rule =>
    have hdecides := rule?_eq_some.1 hrule
    rw [Bool.and_eq_true, decide_eq_true_eq]
    refine and_congr_left fun _ => ⟨fun hle => ⟨rule, hdecides, hle⟩, ?_⟩
    rintro ⟨rule', hdecides', hle⟩
    rwa [hdecides.unique hdecides']

end ShaderFilter.Log
