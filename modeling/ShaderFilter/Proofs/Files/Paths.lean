import ShaderFilter.Files.Path
import ShaderFilter.Proofs.Text.Fields

/-!
# Names and folders of paths

A path is cut at its slashes, and pieces that stay where they are count for nothing behind the first
one. So the name of the file that a path leads to is the last piece that counts, if it is a name
(`fileName?_eq_some`, with `EndsIn` in terms of the characters of the path), and the path of the
folder above has the parts of the path but for the last one (`parts_parent?`).
-/

namespace ShaderFilter.Files.Path

/-! ### Texts between slashes -/

theorem texts_ne_nil (path : String) : texts path ≠ [] := by
  rw [texts, ne_eq, List.map_eq_nil_iff]
  exact Text.pieces_ne_nil _ _

theorem not_mem_of_mem_texts {path s : String} (h : s ∈ texts path) : '/' ∉ s.toList := by
  obtain ⟨piece, hpiece, rfl⟩ := List.mem_map.1 h
  rw [String.toList_ofList]
  exact Text.not_mem_of_mem_pieces hpiece

/-- The texts of a path that is put together from texts. -/
theorem texts_intercalate {ss : List String} (hne : ss ≠ []) (h : ∀ s ∈ ss, '/' ∉ s.toList) :
    texts ("/".intercalate ss) = ss := by
  have hslash : ∀ l ∈ ss.map String.toList, '/' ∉ l := by simpa using h
  have hss : ss.map String.toList ≠ [] := by simpa using hne
  have hsep : "/".toList = ['/'] := rfl
  rw [texts, Text.pieces_eq_splitOn, String.toList_intercalate, hsep,
    List.splitOn_intercalate _ hslash hss, List.map_map]
  simp

theorem toList_eq_intercalate (path : String) :
    path.toList = ['/'].intercalate ((texts path).map String.toList) := by
  have hpieces : (texts path).map String.toList = Text.pieces '/' path.toList := by
    simp [texts]
  rw [hpieces, Text.pieces_eq_splitOn, List.intercalate_splitOn]

/-- A path starts at the root if it has a slash and nothing before it. -/
theorem isAbsolute_iff {path first : String} {rest : List String}
    (h : texts path = first :: rest) : isAbsolute path ↔ first = "" ∧ rest ≠ [] := by
  rw [isAbsolute, beq_iff_eq, toList_eq_intercalate, h]
  cases rest with
  | nil =>
    have hfirst : '/' ∉ first.toList := not_mem_of_mem_texts (h ▸ List.mem_cons_self)
    simp only [List.map_cons, List.map_nil, List.intercalate_singleton, ne_eq, not_true_eq_false,
      and_false, iff_false]
    exact fun hhead => hfirst (List.mem_of_head? hhead)
  | cons second rest =>
    cases hcs : first.toList with
    | nil => simp [List.intercalate, String.toList_eq_nil_iff.1 hcs]
    | cons c cs =>
      have hfirst : '/' ∉ first.toList := not_mem_of_mem_texts (h ▸ List.mem_cons_self)
      have hne : first ≠ "" := by
        rintro rfl
        cases hcs
      rw [hcs, List.mem_cons, not_or] at hfirst
      simp [List.intercalate, hcs, hne, Ne.symm hfirst.1]

theorem isIdle_iff {s : String} : isIdle s ↔ s = "" ∨ s = "." := by
  rw [isIdle, beq_iff_eq, Part.ofText]
  split
  · exact iff_of_true rfl ‹_›
  · refine iff_of_false ?_ ‹_›
    split <;> exact Part.noConfusion

theorem ofText_eq_name {x s : String} :
    Part.ofText x = .name s ↔ x = s ∧ ¬ isIdle s ∧ s ≠ ".." := by
  rw [isIdle_iff, Part.ofText]
  split
  · exact iff_of_false nofun fun ⟨hx, hs, _⟩ => hs (hx ▸ ‹_›)
  · split
    · exact iff_of_false nofun fun ⟨hx, _, hs⟩ => hs (hx ▸ ‹_›)
    · simp only [Part.name.injEq, iff_self_and]
      rintro rfl
      exact ⟨‹_›, ‹_›⟩

/-- The parts of a path, by its texts. -/
theorem parts_eq {path first : String} {rest : List String} (h : texts path = first :: rest) :
    parts path = (if first = "" then (if rest = [] then [] else [.root]) else [.ofText first]) ++
      (rest.filter (!isIdle ·)).map Part.ofText := by
  have hfilter : (rest.map Part.ofText).filter (· ≠ .here) =
      (rest.filter (!isIdle ·)).map Part.ofText := by
    rw [List.filter_map]
    congr 2
    funext s
    rw [Function.comp_apply, decide_not]
    rfl
  rw [parts, h]
  simp only [hfilter, isAbsolute_iff h]
  by_cases hfirst : first = "" <;> by_cases hrest : rest = [] <;> simp [hfirst, hrest]

/-! ### The name of a file -/

/-- The end of a path that stays where it is: slashes and single dots behind slashes. -/
inductive Idle : List Char → Prop where
  /-- Nothing. -/
  | nil : Idle []
  /-- A slash with nothing behind it. -/
  | slash {cs : List Char} : Idle cs → Idle ('/' :: cs)
  /-- A slash with a single dot behind it. -/
  | dot {cs : List Char} : Idle cs → Idle ('/' :: '.' :: cs)

/-- A path ends in a name: the last of its texts between slashes that counts. -/
def EndsIn (path name : String) : Prop :=
  name ∉ ["", ".", ".."] ∧ '/' ∉ name.toList ∧
    ∃ front back, path.toList = front ++ name.toList ++ back ∧
      (front = [] ∨ ∃ folders, front = folders ++ ['/']) ∧ Idle back

/-- The last of some texts that counts. -/
theorem getLast?_filter_eq_some {ss : List String} {name : String} :
    (ss.filter (!isIdle ·)).getLast? = some name ↔ ∃ front back, ss = front ++ name :: back ∧
      ¬ isIdle name ∧ ∀ s ∈ back, isIdle s := by
  constructor
  · intro hlast
    obtain ⟨before, hbefore⟩ := List.getLast?_eq_some_iff.1 hlast
    obtain ⟨front, rest, rfl, -, hrest⟩ := List.filter_eq_append_iff.1 hbefore
    obtain ⟨idle, back, rfl, hidle, hname, hback⟩ := List.filter_eq_cons_iff.1 hrest
    refine ⟨front ++ idle, back, by simp, by simpa using hname, ?_⟩
    simpa using List.filter_eq_nil_iff.1 hback
  · rintro ⟨front, back, rfl, hname, hback⟩
    have hnil : back.filter (!isIdle ·) = [] := List.filter_eq_nil_iff.2 (by simpa using hback)
    simp [hname, hnil]

/-- The name of a file is the last text that counts. -/
theorem fileName?_eq_some_iff_texts {path name : String} :
    fileName? path = some name ↔
      ((texts path).filter (!isIdle ·)).getLast? = some name ∧ name ≠ ".." := by
  obtain ⟨first, rest, htexts⟩ := List.exists_cons_of_ne_nil (texts_ne_nil path)
  have hname : fileName? path = some name ↔ (parts path).getLast? = some (.name name) := by
    rw [fileName?]
    split <;> simp_all
  rw [hname, parts_eq htexts, htexts, List.getLast?_append, List.getLast?_map, List.filter_cons]
  cases hlast : (rest.filter (!isIdle ·)).getLast? with
  | some x =>
    have hx : ¬ isIdle x := by simpa using (List.mem_filter.1 (List.mem_of_getLast? hlast)).2
    have hfirst : ((if !isIdle first then first :: rest.filter (!isIdle ·)
        else rest.filter (!isIdle ·)).getLast?) = some x := by
      split <;> simp [List.getLast?_cons, hlast]
    rw [hfirst, Option.map_some, Option.some_or, Option.some.injEq, Option.some.injEq,
      ofText_eq_name]
    constructor
    · exact fun ⟨h, _, hup⟩ => ⟨h, hup⟩
    · exact fun ⟨h, hup⟩ => ⟨h, h ▸ hx, hup⟩
  | none =>
    rw [List.getLast?_eq_none_iff.1 hlast, Option.map_none, Option.none_or]
    by_cases hfirst : isIdle first
    · have hnone : ((if first = "" then if rest = [] then [] else [Part.root]
          else [Part.ofText first]).getLast?) ≠ some (.name name) := by
        have hhere : Part.ofText first = .here := by simpa [isIdle] using hfirst
        split
        · split <;> simp
        · simp [hhere]
      simp [hfirst, hnone]
    · have hne : first ≠ "" := fun h => hfirst (isIdle_iff.2 (.inl h))
      simp only [hne, hfirst, if_false, Bool.not_false, if_true, List.getLast?_singleton,
        Option.some.injEq, ofText_eq_name]
      constructor
      · exact fun ⟨h, _, hup⟩ => ⟨h, hup⟩
      · exact fun ⟨h, hup⟩ => ⟨h, h ▸ hfirst, hup⟩

theorem intercalate_cons (sep : Char) (ps : List Char) (pss : List (List Char)) :
    [sep].intercalate (ps :: pss) = ps ++ pss.flatMap (sep :: ·) := by
  induction pss generalizing ps with
  | nil => simp
  | cons qs pss ih => rw [List.intercalate_cons_cons, ih]; simp

theorem intercalate_around (sep : Char) (front : List (List Char)) (ps : List Char)
    (back : List (List Char)) :
    [sep].intercalate (front ++ ps :: back) =
      front.flatMap (· ++ [sep]) ++ ps ++ back.flatMap (sep :: ·) := by
  induction front with
  | nil => exact intercalate_cons sep ps back
  | cons qs front ih =>
    obtain ⟨q, rest, hrest⟩ := List.exists_cons_of_ne_nil (l := front ++ ps :: back) (by simp)
    rw [List.cons_append, hrest, List.intercalate_cons_cons, ← hrest, ih]
    simp

/-- The end of a path that stays where it is, by its texts. -/
theorem idle_iff {cs : List Char} :
    Idle cs ↔ ∃ back : List String, (∀ s ∈ back, isIdle s) ∧
      cs = back.flatMap fun s => '/' :: s.toList := by
  constructor
  · intro h
    induction h with
    | nil => exact ⟨[], nofun, rfl⟩
    | slash _ ih =>
      obtain ⟨back, hback, rfl⟩ := ih
      exact ⟨"" :: back, by simpa [isIdle_iff] using hback, rfl⟩
    | dot _ ih =>
      obtain ⟨back, hback, rfl⟩ := ih
      exact ⟨"." :: back, by simpa [isIdle_iff] using hback, rfl⟩
  · rintro ⟨back, hback, rfl⟩
    induction back with
    | nil => exact .nil
    | cons s back ih =>
      obtain ⟨hs, hrest⟩ := List.forall_mem_cons.1 hback
      rcases isIdle_iff.1 hs with rfl | rfl
      · exact .slash (ih hrest)
      · exact .dot (ih hrest)

/-- The name of the file that a path leads to is the one in which the path ends. -/
theorem fileName?_eq_some {path name : String} :
    fileName? path = some name ↔ EndsIn path name := by
  rw [fileName?_eq_some_iff_texts, getLast?_filter_eq_some]
  constructor
  · rintro ⟨⟨front, back, htexts, hname, hback⟩, hup⟩
    have hmem : name ∈ texts path := by simp [htexts]
    have hslash : '/' ∉ name.toList := not_mem_of_mem_texts hmem
    refine ⟨by simp_all [isIdle_iff], hslash, front.flatMap (fun s => s.toList ++ ['/']),
      back.flatMap (fun s => '/' :: s.toList), ?_, ?_, idle_iff.2 ⟨back, hback, rfl⟩⟩
    · rw [toList_eq_intercalate, htexts, List.map_append, List.map_cons, intercalate_around,
        List.flatMap_map, List.flatMap_map]
    · rcases List.eq_nil_or_concat front with rfl | ⟨front, s, rfl⟩
      · exact .inl rfl
      · exact .inr ⟨front.flatMap (fun s => s.toList ++ ['/']) ++ s.toList, by simp⟩
  · rintro ⟨hname, hslash, front, back, hpath, hfront, hback⟩
    obtain ⟨back, hidle, rfl⟩ := idle_iff.1 hback
    have hslashes : ∀ l ∈ (name :: back).map String.toList, '/' ∉ l := by
      simp only [List.map_cons, List.forall_mem_cons, List.forall_mem_map]
      refine ⟨hslash, fun s hs => ?_⟩
      rcases isIdle_iff.1 (hidle s hs) with rfl | rfl <;> decide
    have hpieces : Text.pieces '/' (name.toList ++ back.flatMap fun s => '/' :: s.toList) =
        (name :: back).map String.toList := by
      rw [← List.splitOn_intercalate '/' hslashes (by simp), ← Text.pieces_eq_splitOn,
        List.map_cons, intercalate_cons, List.flatMap_map]
    have htexts : ∃ folders, texts path = folders ++ name :: back := by
      rw [texts, hpath, List.append_assoc]
      rcases hfront with rfl | ⟨folders, rfl⟩
      · exact ⟨[], by simp [hpieces]⟩
      · exact ⟨(Text.pieces '/' folders).map String.ofList, by
          simp [Text.pieces_append, hpieces]⟩
    obtain ⟨folders, htexts⟩ := htexts
    exact ⟨⟨folders, back, htexts, by simp_all [isIdle_iff], hidle⟩, by simp_all⟩

/-! ### The folder above -/

theorem filter_dropWhile (ss : List String) :
    (ss.dropWhile isIdle).filter (!isIdle ·) = ss.filter (!isIdle ·) := by
  induction ss with
  | nil => rfl
  | cons s ss ih => by_cases hs : isIdle s <;> simp [hs, ih]

theorem ofText_ne_root (s : String) : Part.ofText s ≠ .root := by
  rw [Part.ofText]
  split
  · exact Part.noConfusion
  · split <;> exact Part.noConfusion

section

variable {ss above : List String} {last : String}
  (hdrop : ss.reverse.dropWhile isIdle = last :: above)

include hdrop

/-- The last text that counts, and the ones that count before it. -/
theorem filter_of_dropWhile_reverse : ss.filter (!isIdle ·) =
    ((above.dropWhile isIdle).reverse).filter (!isIdle ·) ++ [last] := by
  have hlast : ¬ isIdle last := by
    have hhead := List.head_dropWhile_not isIdle (w := hdrop ▸ List.cons_ne_nil last above)
    simpa [hdrop] using hhead
  have hfilter := filter_dropWhile ss.reverse
  rw [hdrop, List.filter_reverse, List.filter_cons_of_pos (by simpa using hlast)] at hfilter
  rw [List.filter_reverse, filter_dropWhile, ← List.reverse_reverse (ss.filter _), ← hfilter,
    List.reverse_cons]

theorem mem_of_dropWhile_reverse {s : String} (hs : s ∈ (above.dropWhile isIdle).reverse) :
    s ∈ ss := by
  have habove : s ∈ above := (List.dropWhile_sublist _).mem (List.mem_reverse.1 hs)
  have hmem : s ∈ ss.reverse.dropWhile isIdle := hdrop ▸ List.mem_cons_of_mem _ habove
  exact List.mem_reverse.1 ((List.dropWhile_sublist _).mem hmem)

end

/-- The folder above has the parts of the path but for the last one, which is not the root. -/
theorem parts_parent? {path folder : String} (h : parent? path = some folder) :
    ∃ last, last ≠ .root ∧ parts path = parts folder ++ [last] := by
  obtain ⟨first, rest, htexts⟩ := List.exists_cons_of_ne_nil (texts_ne_nil path)
  simp only [parent?, htexts] at h
  split at h
  · rename_i hidle
    have hrest := filter_dropWhile rest.reverse
    rw [hidle, List.filter_nil, List.filter_reverse, eq_comm, List.reverse_eq_nil_iff] at hrest
    split at h
    · cases h
    · rename_i hfirst
      cases h
      have hempty : parts "" = [] := by decide +kernel
      exact ⟨.ofText first, ofText_ne_root _, by simp [parts_eq htexts, hfirst, hrest, hempty]⟩
  · rename_i last above hdrop
    have hcounting := filter_of_dropWhile_reverse hdrop
    have hne : rest ≠ [] := by
      rintro rfl
      simp at hcounting
    refine ⟨.ofText last, ofText_ne_root _, ?_⟩
    rw [parts_eq htexts, hcounting, List.map_append, List.map_singleton, ← List.append_assoc]
    congr 1
    simp only [Option.some.injEq] at h
    split at h
    · rename_i hroot
      obtain ⟨rfl, habove⟩ := hroot
      subst h
      have hslash : parts "/" = [.root] := by decide +kernel
      simp [habove, hne, hslash]
    · rename_i hroot
      have htexts' : texts folder = first :: (above.dropWhile isIdle).reverse := by
        rw [← h]
        refine texts_intercalate (List.cons_ne_nil _ _) fun s hs => ?_
        have hmem : s ∈ texts path := by
          rw [htexts]
          obtain rfl | hs := List.mem_cons.1 hs
          · exact List.mem_cons_self
          · exact List.mem_cons_of_mem _ (mem_of_dropWhile_reverse hdrop hs)
        exact not_mem_of_mem_texts hmem
      rw [parts_eq htexts']
      by_cases hfirst : first = ""
      · have habove : (above.dropWhile isIdle).reverse ≠ [] := fun h => hroot ⟨hfirst, h⟩
        simp only [hfirst, if_true, hne, habove, if_false]
      · simp only [hfirst, if_false]

/-- The root and a path without parts have no folder above. -/
theorem parent?_eq_none {path : String} :
    parent? path = none ↔ parts path = [] ∨ parts path = [.root] := by
  constructor
  · intro h
    obtain ⟨first, rest, htexts⟩ := List.exists_cons_of_ne_nil (texts_ne_nil path)
    have hrest := filter_dropWhile rest.reverse
    simp only [parent?, htexts] at h
    split at h
    · rename_i hidle
      rw [hidle, List.filter_nil, List.filter_reverse, eq_comm, List.reverse_eq_nil_iff] at hrest
      have hfirst : first = "" := by simpa using h
      rw [parts_eq htexts, hrest]
      by_cases hnil : rest = [] <;> simp [hfirst, hnil]
    · cases h
  · intro h
    cases hfolder : parent? path with
    | none => rfl
    | some folder =>
      obtain ⟨last, hlast, hparts⟩ := parts_parent? hfolder
      rw [hparts] at h
      rcases h with h | h
      · simp at h
      · rcases List.append_eq_singleton_iff.1 h with ⟨-, h⟩ | ⟨-, h⟩
        · exact absurd (List.singleton_inj.1 h) hlast
        · exact absurd h (List.cons_ne_nil _ _)

/-- A path is a number of folders above another one. -/
inductive Above : Nat → String → String → Prop where
  /-- The folder itself. -/
  | here {path : String} : Above 0 path path
  /-- What is above the folder that holds it. -/
  | up {k : Nat} {path folder above : String} : parent? path = some folder →
      Above k folder above → Above (k + 1) path above

theorem getElem?_upwards {n k : Nat} {path above : String} :
    (upwards n path)[k]? = some above ↔ k < n ∧ Above k path above := by
  induction n generalizing k path with
  | zero => simp [upwards]
  | succ n ih =>
    rw [upwards]
    cases k with
    | zero =>
      simp only [List.getElem?_cons_zero, Option.some.injEq, Nat.zero_lt_succ, true_and]
      constructor
      · rintro rfl
        exact .here
      · rintro ⟨⟩
        rfl
    | succ k =>
      rw [List.getElem?_cons_succ, Nat.add_lt_add_iff_right]
      cases hfolder : parent? path with
      | none =>
        refine iff_of_false (by simp) fun ⟨_, habove⟩ => ?_
        cases habove with
        | up hfolder' => cases hfolder.symm.trans hfolder'
      | some folder =>
        simp only [ih]
        refine and_congr_right fun _ => ⟨.up hfolder, fun habove => ?_⟩
        cases habove with
        | up hfolder' habove =>
          cases hfolder.symm.trans hfolder'
          exact habove

end ShaderFilter.Files.Path
