import QuizPress.Files.Path
import Mathlib.Data.List.DropRight

/-! Paths and their parts: a path is its parts, and a path made of another one differs from it in its
last part alone. -/
namespace QuizPress.Files.Path

theorem splitSlash_ne_nil (cs : List Char) : splitSlash cs ≠ [] := by
  cases cs with
  | nil => exact List.cons_ne_nil _ _
  | cons c cs =>
    rw [splitSlash]
    split
    · exact List.cons_ne_nil _ _
    · split
      · exact List.cons_ne_nil _ _
      · exact List.cons_ne_nil _ _

private theorem splitSlash_cons {c : Char} {cs part : List Char} {others : List (List Char)} (h : c ≠ '/')
    (hs : splitSlash cs = part :: others) : splitSlash (c :: cs) = (c :: part) :: others := by
  rw [splitSlash, if_neg h, hs]

theorem splitSlash_append (cs ds : List Char) :
    splitSlash (cs ++ '/' :: ds) = splitSlash cs ++ splitSlash ds := by
  induction cs with
  | nil => rfl
  | cons c cs ih =>
    by_cases h : c = '/'
    · subst h
      exact congrArg (List.cons []) ih
    · obtain ⟨part, others, hs⟩ := List.exists_cons_of_ne_nil (splitSlash_ne_nil cs)
      rw [hs] at ih
      rw [splitSlash_cons h hs]
      exact splitSlash_cons h ih

theorem splitSlash_of_not_mem {cs : List Char} (h : '/' ∉ cs) : splitSlash cs = [cs] := by
  induction cs with
  | nil => rfl
  | cons c cs ih =>
    exact splitSlash_cons (fun hc => h (hc ▸ List.mem_cons_self)) (ih fun hm => h (List.mem_cons_of_mem _ hm))

theorem not_mem_splitSlash {cs part : List Char} (h : part ∈ splitSlash cs) : '/' ∉ part := by
  induction cs generalizing part with
  | nil =>
    rw [List.mem_singleton.1 h]
    exact List.not_mem_nil
  | cons c cs ih =>
    by_cases hc : c = '/'
    · rw [splitSlash, if_pos hc] at h
      rcases List.mem_cons.1 h with rfl | h
      · exact List.not_mem_nil
      · exact ih h
    · obtain ⟨first, others, hs⟩ := List.exists_cons_of_ne_nil (splitSlash_ne_nil cs)
      rw [hs] at ih
      rw [splitSlash_cons hc hs] at h
      rcases List.mem_cons.1 h with rfl | h
      · intro hm
        rcases List.mem_cons.1 hm with rfl | hm
        · exact hc rfl
        · exact ih List.mem_cons_self hm
      · exact ih (List.mem_cons_of_mem _ h)

variable {path : String} {ps : List String}

theorem parts_ne_nil (path : String) : parts path ≠ [] := fun h =>
  splitSlash_ne_nil _ (List.map_eq_nil_iff.1 h)

theorem parts_append (s t : String) : parts (s ++ "/" ++ t) = parts s ++ parts t := by
  have h : (s ++ "/" ++ t).toList = s.toList ++ '/' :: t.toList := by simp
  rw [parts, h, splitSlash_append, List.map_append]
  rfl

theorem parts_of_not_mem {s : String} (h : '/' ∉ s.toList) : parts s = [s] := by
  rw [parts, splitSlash_of_not_mem h, List.map_singleton, String.ofList_toList]

theorem not_mem_of_mem_parts {part : String} (h : part ∈ parts path) : '/' ∉ part.toList := by
  obtain ⟨cs, hc, rfl⟩ := List.mem_map.1 h
  rw [String.toList_ofList]
  exact not_mem_splitSlash hc

theorem join_append {qs : List String} (hp : ps ≠ []) (hq : qs ≠ []) :
    join (ps ++ qs) = join ps ++ "/" ++ join qs :=
  String.intercalate_append_of_ne_nil hp hq

/-- Parts between slashes are found again. -/
theorem parts_join (hne : ps ≠ []) (h : ∀ part ∈ ps, '/' ∉ part.toList) : parts (join ps) = ps := by
  induction ps with
  | nil => exact absurd rfl hne
  | cons part ps ih =>
    have hpart := parts_of_not_mem (h part List.mem_cons_self)
    by_cases hps : ps = []
    · subst hps
      exact (congrArg parts String.intercalate_singleton).trans hpart
    · have hj : join (part :: ps) = part ++ "/" ++ join ps := String.intercalate_cons_of_ne_nil hps
      rw [hj, parts_append, hpart, ih hps fun q hq => h q (List.mem_cons_of_mem _ hq)]
      rfl

private theorem intercalate_splitSlash (cs : List Char) : ['/'].intercalate (splitSlash cs) = cs := by
  induction cs with
  | nil => rfl
  | cons c cs ih =>
    obtain ⟨first, others, hs⟩ := List.exists_cons_of_ne_nil (splitSlash_ne_nil cs)
    rw [hs] at ih
    by_cases hc : c = '/'
    · rw [splitSlash, if_pos hc, hs, List.intercalate_cons_cons, ih, hc]
      rfl
    · rw [splitSlash_cons hc hs]
      cases others with
      | nil => exact congrArg (List.cons c) ih
      | cons second others =>
        rw [List.intercalate_cons_cons] at ih ⊢
        exact congrArg (List.cons c) ih

theorem join_parts (path : String) : join (parts path) = path := by
  have hm : String.toList ∘ String.ofList = id := funext fun cs => String.toList_ofList
  rw [← String.toList_inj, join, String.toList_intercalate, parts, List.map_map, hm, List.map_id]
  exact intercalate_splitSlash path.toList

/-- The last part of a path, and those before it. -/
theorem exists_parts (path : String) : ∃ above last, parts path = above ++ [last] :=
  ⟨_, _, (List.dropLast_concat_getLast (parts_ne_nil path)).symm⟩

section
variable {above : List String} {last : String}

/-- A path that does not end with a slash is not empty behind its last one. -/
theorem last_ne_slash (hp : parts path = above ++ [last]) (hl : last ≠ "") :
    path.toList.getLast? ≠ some '/' := by
  intro h
  obtain ⟨cs, hc⟩ := List.getLast?_eq_some_iff.1 h
  have hs : parts path = (splitSlash cs).map .ofList ++ [""] := by
    rw [parts, hc, splitSlash_append, List.map_append]
    rfl
  rw [hp] at hs
  exact hl (List.append_inj_right' hs rfl |> List.cons.inj |>.1)

/-- An absolute path has nothing before its first slash. -/
theorem isAbsolute_eq (hp : parts path = above ++ [last]) :
    isAbsolute path = (above.head? == some "") := by
  cases hs : path.toList with
  | nil =>
    rw [parts, hs] at hp
    have ha : above = [] := by
      cases above with
      | nil => rfl
      | cons a above => simp [splitSlash] at hp
    rw [isAbsolute, hs, ha]
    rfl
  | cons c cs =>
    obtain ⟨first, others, ho⟩ := List.exists_cons_of_ne_nil (splitSlash_ne_nil cs)
    by_cases hc : c = '/'
    · rw [parts, hs, splitSlash, if_pos hc, ho] at hp
      cases above with
      | nil => simp at hp
      | cons a above =>
        have ha : "" = a := (List.cons.inj hp).1
        rw [isAbsolute, hs, ← ha, hc]
        rfl
    · rw [parts, hs, splitSlash_cons hc ho] at hp
      rw [isAbsolute, hs]
      cases above with
      | nil => simp [hc]
      | cons a above =>
        have ha : String.ofList (c :: first) = a := (List.cons.inj hp).1
        simp [hc, ← ha]

end

theorem withoutIdle_concat {last : String} (h : isIdle last = false) (above : List String) :
    withoutIdle (above ++ [last]) = above ++ [last] := by
  simp [withoutIdle, h]

/-- Nothing but idle parts is left off. -/
theorem withoutIdle_append (ps : List String) :
    ∃ rest, (∀ part ∈ rest, isIdle part = true) ∧ withoutIdle ps ++ rest = ps := by
  refine ⟨(ps.reverse.takeWhile isIdle).reverse, fun part hm => ?_, ?_⟩
  · exact List.all_eq_true.1 List.all_takeWhile part (List.mem_reverse.1 hm)
  · rw [withoutIdle, ← List.reverse_append, List.takeWhile_append_dropWhile, List.reverse_reverse]

theorem withoutIdle_front (ps : List String) : withoutIdle ps <+: ps :=
  List.rdropWhile_prefix isIdle ps

theorem withoutIdle_cases (ps : List String) :
    withoutIdle ps = [] ∧ (∀ part ∈ ps, isIdle part = true) ∨
      ∃ before part, withoutIdle ps = before ++ [part] ∧ isIdle part = false := by
  by_cases h : withoutIdle ps = []
  · exact .inl ⟨h, List.rdropWhile_eq_nil_iff.1 h⟩
  · refine .inr ⟨_, _, (List.dropLast_concat_getLast h).symm, ?_⟩
    have hl := List.rdropWhile_last_not isIdle ps h
    rw [Bool.not_eq_true] at hl
    exact hl

theorem withoutIdle_withoutIdle (ps : List String) : withoutIdle (withoutIdle ps) = withoutIdle ps := by
  rcases withoutIdle_cases ps with ⟨h, _⟩ | ⟨before, part, h, hi⟩
  · rw [h]
    rfl
  · rw [h]
    exact withoutIdle_concat hi before

/-- Parts that lead to one directory in every tree: they differ in idle ones at the end alone, and
both or neither begin at the top. -/
structure SameDirectory (ps qs : List String) : Prop where
  rest : withoutIdle ps = withoutIdle qs
  top : ps.head? = some "" ↔ qs.head? = some ""

theorem sameDirectory_withoutIdle {ps : List String} (h : withoutIdle ps ≠ []) :
    SameDirectory (withoutIdle ps) ps := by
  refine ⟨withoutIdle_withoutIdle ps, ?_⟩
  obtain ⟨a, as, ha⟩ := List.exists_cons_of_ne_nil h
  obtain ⟨rest, hr⟩ := withoutIdle_front ps
  rw [ha] at hr ⊢
  rw [← hr]
  exact Iff.rfl

inductive Parent (above : List String) : String → Prop where
  | here (h : above = []) : Parent above ""
  | top (h : ∀ part ∈ above, isIdle part = true) (ht : above.head? = some "") : Parent above "/"
  | idle (h : ∀ part ∈ above, isIdle part = true) (ht : above.head? = some ".") : Parent above "."
  | named {before part} (h : withoutIdle above = before ++ [part]) (hp : isIdle part = false) :
      Parent above (join (before ++ [part]))

section
variable {above : List String} {last : String}

theorem parent_of_parts (hp : parts path = above ++ [last]) (hl : isIdle last = false) :
    ∃ parent, parent? path = some parent ∧ Parent above parent := by
  obtain ⟨first, others, hc⟩ := List.exists_cons_of_ne_nil (List.concat_ne_nil last above)
  have hn : withoutIdle (parts path) = first :: others := by rw [hp, withoutIdle_concat hl, hc]
  have hd : (first :: others).dropLast = above := by rw [← hc, List.dropLast_concat]
  rcases withoutIdle_cases above with ⟨hw, hi⟩ | ⟨before, part, hw, hi⟩
  · cases above with
    | nil => exact ⟨"", by simp only [parent?, hn, hd, hw], .here rfl⟩
    | cons a above =>
      have hq : parent? path = some (if a = "" then "/" else a) := by
        simp only [parent?, hn, hd, hw]
      by_cases ha : a = ""
      · exact ⟨"/", by rw [hq, if_pos ha], .top hi (congrArg some ha)⟩
      · have hdot : a = "." := by
          simpa [isIdle, ha] using hi a List.mem_cons_self
        exact ⟨".", by rw [hq, if_neg ha, hdot], .idle hi (congrArg some hdot)⟩
  · obtain ⟨b, bs, hb⟩ := List.exists_cons_of_ne_nil (List.concat_ne_nil part before)
    rw [hb] at hw
    exact ⟨join (b :: bs), by simp only [parent?, hn, hd, hw], hb ▸ .named (hb ▸ hw) hi⟩

/-- A file beside another one. -/
theorem parts_child (hp : parts path = above ++ [last]) (hl : isIdle last = false) {name : String}
    (hn : '/' ∉ name.toList) :
    ∃ above', parts (child (directory path) name) = above' ++ [name] ∧ SameDirectory above' above := by
  have hidle {ps : List String} (h : ∀ part ∈ ps, isIdle part = true) : withoutIdle ps = [] :=
    List.rdropWhile_eq_nil_iff.2 h
  have hslash (s : String) : parts (s ++ "/" ++ name) = parts s ++ [name] := by
    rw [parts_append, parts_of_not_mem hn]
  obtain ⟨parent, hq, hc⟩ := parent_of_parts hp hl
  rw [directory, hq]
  cases hc with
  | here h =>
    subst h
    exact ⟨["."], hslash ".", rfl, by simp⟩
  | top h ht => exact ⟨[""], hslash "", (hidle h).symm, by simp [ht]⟩
  | idle h ht => exact ⟨["."], hslash ".", (hidle h).symm, by simp [ht]⟩
  | named h hi =>
    rename_i before part
    have hne : part ≠ "" := by
      rintro rfl
      cases hi
    have hm : ∀ q ∈ before ++ [part], '/' ∉ q.toList := fun q hq =>
      not_mem_of_mem_parts (hp ▸ List.mem_append_left _ ((h ▸ withoutIdle_front above).subset hq))
    have hparts : parts (join (before ++ [part])) = before ++ [part] :=
      parts_join (List.concat_ne_nil part before) hm
    have hempty : (join (before ++ [part])).isEmpty = false := by
      rw [Bool.eq_false_iff, Ne, String.isEmpty_iff]
      intro he
      rw [he] at hparts
      have hl := congrArg List.getLast? hparts
      rw [List.getLast?_concat] at hl
      exact hne (Option.some.inj hl).symm
    refine ⟨before ++ [part], ?_, ?_⟩
    · simp only [hempty, child, beq_iff_eq, last_ne_slash hparts hne, if_false, Bool.false_eq_true]
      rw [hslash, hparts]
    · rw [← h]
      exact sameDirectory_withoutIdle (h ▸ List.concat_ne_nil part before)

structure Proper (part : String) : Prop where
  notIdle : isIdle part = false
  notUp : part ≠ ".."

private theorem mem_splitExtension {name : String} {c : Char}
    (h : c ∈ (splitExtension name).1.toList) : c ∈ name.toList := by
  simp only [splitExtension] at h
  split at h
  · rename_i dot c' cs hd
    rw [String.toList_ofList, List.mem_reverse] at h
    have hs := (List.dropWhile_suffix (· != '.') (l := name.toList.reverse)).subset
    rw [hd] at hs
    exact List.mem_reverse.1 (hs (List.mem_cons_of_mem _ h))
  · exact h

theorem renamed_cases (name extension : String) :
    renamed name extension = ".." ∨
      renamed name extension = (splitExtension name).1 ++ "." ++ extension := by
  unfold renamed
  split
  · exact .inl rfl
  · rename_i h
    exact .inr (by rw [h])

theorem slash_not_mem_renamed {name extension : String} (hn : '/' ∉ name.toList)
    (he : '/' ∉ extension.toList) : '/' ∉ (renamed name extension).toList := by
  rcases renamed_cases name extension with h | h
  · rw [h]
    decide
  · rw [h, String.toList_append, String.toList_append]
    intro hm
    rcases List.mem_append.1 hm with hm | hm
    · rcases List.mem_append.1 hm with hm | hm
      · exact hn (mem_splitExtension hm)
      · exact absurd hm (by decide)
    · exact he hm

theorem isIdle_renamed {extension : String} (he : extension ≠ "") (name : String) :
    isIdle (renamed name extension) = false := by
  have hlong : 2 ≤ (renamed name extension).length := by
    rcases renamed_cases name extension with h | h
    · rw [h]
      decide
    · have hpos : extension.length ≠ 0 := by simpa using he
      simp only [h, String.length_append]
      have : ".".length = 1 := rfl
      omega
  rw [Bool.eq_false_iff]
  intro h
  rcases Bool.or_eq_true _ _ |>.mp h with h | h
  · rw [beq_iff_eq] at h
    rw [h] at hlong
    exact absurd hlong (by decide)
  · rw [beq_iff_eq] at h
    rw [h] at hlong
    exact absurd hlong (by decide)

/-- Another extension is another last part. -/
theorem parts_withExtension (hp : parts path = above ++ [last]) (hl : Proper last) {extension : String}
    (he : '/' ∉ extension.toList) :
    parts (withExtension path extension) = above ++ [renamed last extension] := by
  have hf : fileName? path = some last := by
    rw [fileName?, hp, withoutIdle_concat hl.notIdle, List.getLast?_concat]
    simp [hl.notUp]
  have hw : withExtension path extension = join (above ++ [renamed last extension]) := by
    simp only [withExtension, hf, hp, withoutIdle_concat hl.notIdle, List.dropLast_concat]
  rw [hw]
  refine parts_join (List.concat_ne_nil _ _) fun part hm => ?_
  rcases List.mem_append.1 hm with hm | hm
  · exact not_mem_of_mem_parts (hp ▸ List.mem_append_left _ hm)
  · have hlast : last ∈ parts path := hp ▸ List.mem_concat_self
    rw [List.mem_singleton.1 hm]
    exact slash_not_mem_renamed (not_mem_of_mem_parts hlast) he

end

end QuizPress.Files.Path
