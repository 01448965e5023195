import QuizPress.Files.Tree
import QuizPress.Proofs.Except
import QuizPress.Proofs.Files.Path

/-! What a tree holds after a write, and what paths lead to in it. A file that is written into a
directory which is there changes one location, and no directory. -/
namespace QuizPress.Files.Tree
open Files.Path

variable {tree tree' : Tree} {cwd l l' d : Location} {entry : Entry} {n path : String}
  {contents : List UInt8}

private theorem lookup_cons_self (k : Location) (e : Entry) (es : List (Location × Entry)) :
    ((k, e) :: es).lookup k = some e := by
  simp

private theorem lookup_cons_ne {k : Location} (h : l ≠ k) (e : Entry) (es : List (Location × Entry)) :
    ((k, e) :: es).lookup l = es.lookup l := by
  rw [List.lookup_cons, beq_eq_false_iff_ne.2 h]

private theorem lookup_replace (es : List (Location × Entry)) :
    (es.map fun e => if e.1 = l then (l, entry) else e).lookup l' =
      if l' = l then (es.lookup l).map fun _ => entry else es.lookup l' := by
  induction es with
  | nil => split <;> rfl
  | cons e es ih =>
    obtain ⟨k, old⟩ := e
    rw [List.map_cons]
    by_cases hk : k = l
    · subst hk
      rw [if_pos rfl, lookup_cons_self]
      by_cases hl : l' = k
      · subst hl
        rw [if_pos rfl, lookup_cons_self]
        rfl
      · rw [if_neg hl, lookup_cons_ne hl, lookup_cons_ne hl, ih, if_neg hl]
    · rw [if_neg hk, lookup_cons_ne (Ne.symm hk)]
      by_cases hl : l' = k
      · subst hl
        rw [if_neg hk, lookup_cons_self, lookup_cons_self]
      · rw [lookup_cons_ne hl, lookup_cons_ne hl, ih]

/-- A location of which something is to be known that is written there. -/
theorem entry_put (hne : l ≠ []) (ha : l ≠ aboveRoot) (l' : Location) :
    Tree.entry? (tree.put l entry) l' = if l' = l then some entry else tree.entry? l' := by
  by_cases hr : l' = [] ∨ l' = aboveRoot
  · have hl : l' ≠ l := by
      rcases hr with rfl | rfl
      · exact hne.symm
      · exact ha.symm
    rw [if_neg hl, entry?, entry?, if_pos hr, if_pos hr]
  · rw [ entry?, entry?, if_neg hr, if_neg hr, put]
    split
    · rename_i hs
      obtain ⟨old, ho⟩ := Option.isSome_iff_exists.1 hs
      rw [lookup_replace, ho]
      rfl
    · rename_i hs
      rw [Option.not_isSome_iff_eq_none] at hs
      rw [List.lookup_append]
      by_cases hl : l' = l
      · subst hl
        rw [if_pos rfl, hs, lookup_cons_self]
        rfl
      · rw [if_neg hl, lookup_cons_ne hl]
        exact Option.or_none

theorem concat_ne_aboveRoot (h : n ≠ "..") (d : Location) : d ++ [n] ≠ aboveRoot := by
  intro hc
  have hl := congrArg List.getLast? hc
  rw [List.getLast?_concat] at hl
  exact h (Option.some.inj hl)

/-- Two trees have their directories at the same locations. -/
structure SameDirectories (s t : Tree) : Prop where
  whole : s.whole = t.whole
  directory : ∀ l, s.entry? l = some .directory ↔ t.entry? l = some .directory

theorem SameDirectories.refl (t : Tree) : SameDirectories t t := ⟨rfl, fun _ => Iff.rfl⟩

theorem SameDirectories.trans {s t u : Tree} (h : SameDirectories s t) (h' : SameDirectories t u) :
    SameDirectories s u :=
  ⟨h.whole.trans h'.whole, fun l => (h.directory l).trans (h'.directory l)⟩

theorem find_eq_ok_iff :
    tree.find d n = .ok entry ↔ n.utf8ByteSize ≤ maxName ∧ tree.entry? (d ++ [n]) = some entry := by
  rw [find]
  split
  · rename_i h
    simp [Nat.not_le.2 h]
  · rename_i h
    cases tree.entry? (d ++ [n]) <;> simp [Nat.not_lt.1 h]

/-- The directories that a part leads to. -/
theorem enter_eq_ok_iff {part : String} : tree.enter l part = .ok d ↔
    if isIdle part then d = l
    else if part = ".." then d = tree.outer l
    else part.utf8ByteSize ≤ maxName ∧ tree.entry? (l ++ [part]) = some .directory ∧ d = l ++ [part] := by
  rw [enter]
  split
  · simp [eq_comm]
  · split
    · simp [eq_comm]
    · rw [bind_eq_ok]
      constructor
      · rintro ⟨e, hf, he⟩
        obtain ⟨hs, ht⟩ := find_eq_ok_iff.1 hf
        cases e with
        | directory =>
          cases he
          exact ⟨hs, ht, rfl⟩
        | file contents => cases he
      · rintro ⟨hs, ht, rfl⟩
        exact ⟨.directory, find_eq_ok_iff.2 ⟨hs, ht⟩, rfl⟩

theorem top_congr {s t : Tree} (h : SameDirectories s t) : s.top = t.top := by
  rw [top, top, h.whole]

theorem enter_congr {s t : Tree} (h : SameDirectories s t) {part : String} :
    s.enter l part = .ok d ↔ t.enter l part = .ok d := by
  have ho : s.outer l = t.outer l := by rw [outer, outer, top_congr h]
  rw [enter_eq_ok_iff, enter_eq_ok_iff, ho, h.directory]

theorem walk_congr {s t : Tree} (h : SameDirectories s t) {ps : List String} :
    s.walk l ps = .ok d ↔ t.walk l ps = .ok d := by
  induction ps generalizing l with
  | nil => exact Iff.rfl
  | cons part ps ih =>
    rw [walk, walk, List.foldlM_cons, List.foldlM_cons, bind_eq_ok, bind_eq_ok]
    exact exists_congr fun d' => and_congr (enter_congr h) ih

def reach (tree : Tree) (cwd : Location) (above : List String) : Except FileError Location :=
  tree.walk (if above.head? == some "" then tree.top else cwd) above

structure Valid (path : String) : Prop where
  noNul : '\x00' ∉ path.toList
  short : path.utf8ByteSize < pathBound

theorem locate_eq_ok_iff : tree.locate cwd path = .ok (d, n) ↔
    path ≠ "" ∧ Valid path ∧ ∃ above, parts path = above ++ [n] ∧ tree.reach cwd above = .ok d := by
  obtain ⟨above, last, hp⟩ := exists_parts path
  have hl : tree.locate cwd path = if path.toList.contains '\x00' then .error .nulInName
      else if path.isEmpty then .error .notFound
      else if pathBound ≤ path.utf8ByteSize then .error .nameTooLong
      else tree.reach cwd above >>= fun location => .ok (location, last) := by
    simp only [locate, hp, List.dropLast_concat, List.getLast?_concat, isAbsolute_eq hp]
    rfl
  rw [hl]
  constructor
  · intro h
    split at h
    · cases h
    · rename_i hn
      split at h
      · cases h
      · rename_i he
        split at h
        · cases h
        · rename_i hb
          obtain ⟨location, hr, ho⟩ := bind_eq_ok.1 h
          cases ho
          refine ⟨fun hc => he (String.isEmpty_iff.2 hc), ⟨fun hm => hn ?_, Nat.not_le.1 hb⟩, above, hp, hr⟩
          exact List.contains_iff_mem.2 hm
  · rintro ⟨he, hv, above', hp', hr⟩
    obtain ⟨rfl, hlast⟩ := List.append_inj' (hp.symm.trans hp') rfl
    rw [if_neg fun hn => hv.noNul (List.contains_iff_mem.1 hn), if_neg fun hn => he (String.isEmpty_iff.1 hn),
      if_neg (Nat.not_le.2 hv.short), hr, ok_bind, (List.cons.inj hlast).1]

theorem walk_append (ps qs : List String) :
    tree.walk l (ps ++ qs) = tree.walk l ps >>= fun d => tree.walk d qs :=
  List.foldlM_append

theorem walk_idle {ps : List String} (h : ∀ part ∈ ps, isIdle part = true) : tree.walk l ps = .ok l := by
  induction ps with
  | nil => rfl
  | cons part ps ih =>
    have he : tree.enter l part = .ok l := if_pos (h part List.mem_cons_self)
    rw [walk, List.foldlM_cons, he, ok_bind]
    exact ih fun q hq => h q (List.mem_cons_of_mem _ hq)

/-- Idle parts at the end lead nowhere else. -/
theorem walk_withoutIdle (ps : List String) : tree.walk l (withoutIdle ps) = tree.walk l ps := by
  obtain ⟨rest, hi, hr⟩ := withoutIdle_append ps
  have hw : tree.walk l ps = tree.walk l (withoutIdle ps) >>= fun d => .ok d := by
    conv_lhs => rw [← hr, walk_append]
    exact congrArg _ (funext fun d => walk_idle hi)
  rw [hw]
  cases tree.walk l (withoutIdle ps) <;> rfl

theorem reach_congr {ps qs : List String} (h : SameDirectory ps qs) :
    tree.reach cwd ps = tree.reach cwd qs := by
  have ht : (ps.head? == some "") = (qs.head? == some "") := by
    rw [Bool.eq_iff_iff, beq_iff_eq, beq_iff_eq, h.top]
  rw [reach, reach, ← walk_withoutIdle ps, ← walk_withoutIdle qs, h.rest, ht]

theorem reach_sameDirectories {s t : Tree} (h : SameDirectories s t) {above : List String} :
    s.reach cwd above = .ok d ↔ t.reach cwd above = .ok d := by
  rw [reach, reach, top_congr h, walk_congr h]

theorem locate_sameDirectories {s t : Tree} (h : SameDirectories s t) :
    s.locate cwd path = .ok (d, n) ↔ t.locate cwd path = .ok (d, n) := by
  simp only [locate_eq_ok_iff, reach_sameDirectories h]

theorem readAt_eq_ok_iff :
    tree.readAt l = .ok contents ↔ tree.entry? l = some (.file contents) ∧ l ∉ tree.closed := by
  rw [readAt]
  cases tree.entry? l with
  | none => simp
  | some entry =>
    cases entry with
    | directory => simp
    | file octets => by_cases hc : l ∈ tree.closed <;> simp [hc]

/-- A file that is read, by the directory that it stands in and its name. -/
theorem read_eq_ok_iff : tree.read cwd path = .ok contents ↔
    ∃ d n, tree.locate cwd path = .ok (d, n) ∧ Proper n ∧ n.utf8ByteSize ≤ maxName ∧
      tree.readAt (d ++ [n]) = .ok contents := by
  rw [read, bind_eq_ok]
  constructor
  · rintro ⟨⟨d, n⟩, hl, h⟩
    dsimp only at h
    split at h
    · cases h
    · rename_i hn
      simp only [Bool.or_eq_true, beq_iff_eq, not_or, Bool.not_eq_true] at hn
      split at h
      · cases h
      · rename_i hs
        exact ⟨d, n, hl, ⟨hn.1, hn.2⟩, Nat.not_lt.1 hs, h⟩
  · rintro ⟨d, n, hl, hn, hs, hr⟩
    refine ⟨(d, n), hl, ?_⟩
    simp only [hn.notIdle, beq_iff_eq, hn.notUp, Bool.false_or, if_false, if_neg (Nat.not_lt.2 hs)]
    exact hr

theorem status_of_read (h : tree.read cwd path = .ok contents) :
    tree.status cwd path = .ok (.file contents) := by
  obtain ⟨d, n, hl, hn, hs, hr⟩ := read_eq_ok_iff.1 h
  rw [status, hl, ok_bind]
  simp only [hn.notIdle, beq_iff_eq, hn.notUp, Bool.false_or, if_false]
  exact find_eq_ok_iff.2 ⟨hs, (readAt_eq_ok_iff.1 hr).1⟩

/-- Only one that is closed keeps a file from being read. -/
theorem read_of_isFile (h : tree.isFile cwd path = true) :
    (∃ contents, tree.read cwd path = .ok contents) ∨ tree.read cwd path = .error .notPermitted := by
  unfold isFile at h
  split at h
  · rename_i contents hs
    rw [status, bind_eq_ok] at hs
    obtain ⟨⟨d, n⟩, hl, hs⟩ := hs
    dsimp only at hs
    split at hs
    · cases hs
    · rename_i hn
      obtain ⟨hsize, hentry⟩ := find_eq_ok_iff.1 hs
      have hread : tree.read cwd path = tree.readAt (d ++ [n]) := by
        rw [read, hl, ok_bind]
        simp only [if_neg hn, if_neg (Nat.not_lt.2 hsize)]
      rw [hread, readAt, hentry]
      by_cases hc : d ++ [n] ∈ tree.closed
      · exact .inr (if_pos hc)
      · exact .inl ⟨contents, if_neg hc⟩
  · cases h

theorem Valid.join_front {ps : List String} (hv : Valid path) (hp : ps <+: parts path) (hne : ps ≠ []) :
    Valid (join ps) := by
  obtain ⟨rest, hr⟩ := hp
  by_cases hn : rest = []
  · rw [hn, List.append_nil] at hr
    rw [hr, join_parts]
    exact hv
  · have hj : path = join ps ++ ("/" ++ join rest) := by
      rw [← String.append_assoc, ← join_append hne hn, hr, join_parts]
    refine ⟨fun hm => hv.noNul ?_, Nat.lt_of_le_of_lt ?_ hv.short⟩
    · rw [hj, String.toList_append]
      exact List.mem_append_left _ hm
    · rw [hj, String.utf8ByteSize_append]
      exact Nat.le_add_right _ _

theorem withoutSlashes_eq (h : path.toList.getLast? ≠ some '/') : withoutSlashes path = path := by
  have hd : path.toList.reverse.dropWhile (· == '/') = path.toList.reverse := by
    cases hr : path.toList.reverse with
    | nil => rfl
    | cons c cs =>
      rw [List.getLast?_eq_head?_reverse, hr, List.head?_cons] at h
      rw [List.dropWhile_cons_of_neg]
      simpa using h
  have he : (path.toList.isEmpty && isAbsolute path) = false := by
    rw [isAbsolute]
    cases path.toList <;> rfl
  simp only [withoutSlashes, hd, List.reverse_reverse, he, String.ofList_toList, Bool.false_eq_true,
    if_false]

/-- A directory that is there is not made. -/
theorem ensureDirectory_present (hs : path.toList.getLast? ≠ some '/')
    (h : tree.status cwd path = .ok .directory) : tree.ensureDirectory cwd path = .ok tree := by
  have hi : tree.isDirectory cwd path = true := by rw [isDirectory, h]
  obtain ⟨⟨d, n⟩, hl, hn⟩ := bind_eq_ok.1 h
  have hm : tree.makeDirectory cwd path = .error .alreadyExists := by
    rw [makeDirectory, withoutSlashes_eq hs, hl, ok_bind]
    dsimp only at hn ⊢
    split
    · rfl
    · rename_i hp
      rw [if_neg hp] at hn
      rw [hn]
  rw [ensureDirectory, hm]
  exact if_pos hi

/-- Parts that lead to a directory name one. -/
theorem status_of_reach {before : List String} {part : String} (hv : Valid path)
    (hp : parts path = before ++ [part]) (hi : isIdle part = false)
    (hr : tree.reach cwd (before ++ [part]) = .ok d) : tree.status cwd path = .ok .directory := by
  have hne : part ≠ "" := by
    rintro rfl
    cases hi
  have hh : ((before ++ [part]).head? == some "") = (before.head? == some "") := by
    cases before with
    | nil => simpa using hne
    | cons a before => rfl
  have hpath : path ≠ "" := by
    rintro rfl
    have hl := congrArg List.getLast? hp
    rw [List.getLast?_concat] at hl
    exact hne (Option.some.inj hl).symm
  rw [reach, hh, walk_append, bind_eq_ok] at hr
  obtain ⟨d', hb, he⟩ := hr
  have hl : tree.locate cwd path = .ok (d', part) := locate_eq_ok_iff.2 ⟨hpath, hv, before, hp, hb⟩
  rw [walk, List.foldlM_cons, bind_eq_ok] at he
  obtain ⟨d'', he, -⟩ := he
  rw [enter_eq_ok_iff, if_neg (by simp [hi])] at he
  rw [status, hl, ok_bind]
  dsimp only
  split at he
  · rename_i hu
    rw [if_pos (by simp [hu])]
  · rename_i hu
    rw [if_neg (by simp [hi, hu])]
    exact find_eq_ok_iff.2 ⟨he.1, he.2.1⟩

/-- No directory is made for a file in one that is there. -/
theorem ensureAll_present {above : List String} {parent : String} (hp : Parent above parent)
    (hv : withoutIdle above ≠ [] → Valid (join (withoutIdle above)))
    (hs : ∀ part ∈ above, '/' ∉ part.toList) (hr : tree.reach cwd above = .ok d) :
    tree.ensureAll cwd (ancestors parent) = .ok tree := by
  have ha : ∃ others, ancestors parent = parent :: others := by
    rw [ancestors]
    cases parent.length <;> exact ⟨_, rfl⟩
  obtain ⟨others, ha⟩ := ha
  rw [ha, ensureAll]
  split
  · rfl
  · rename_i hn
    have hd : tree.ensureDirectory cwd parent = .ok tree := by
      cases hp with
      | here h => exact absurd rfl hn
      | top h ht => exact absurd rfl hn
      | idle h ht => exact ensureDirectory_present (by decide) rfl
      | named h hi =>
        rename_i before part
        have hne : withoutIdle above ≠ [] := h ▸ List.concat_ne_nil part before
        have hm : ∀ q ∈ before ++ [part], '/' ∉ q.toList := fun q hq =>
          hs q ((h ▸ withoutIdle_front above).subset hq)
        have hparts : parts (join (before ++ [part])) = before ++ [part] :=
          parts_join (List.concat_ne_nil part before) hm
        have hpart : part ≠ "" := by
          rintro rfl
          cases hi
        have hreach : tree.reach cwd (before ++ [part]) = .ok d := by
          rw [← h, reach_congr (sameDirectory_withoutIdle hne), hr]
        exact ensureDirectory_present (last_ne_slash hparts hpart)
          (status_of_reach (h ▸ hv hne) hparts hi hreach)
    rw [hd]

/-- What a tree is after a file was written to a location. -/
structure Saved (tree : Tree) (l : Location) (contents : List UInt8) (tree' : Tree) : Prop where
  same : SameDirectories tree tree'
  entry : ∀ l', tree'.entry? l' = if l' = l then some (.file contents) else tree.entry? l'

theorem saved_put (h : n ≠ "..") (hd : tree.entry? (d ++ [n]) ≠ some .directory) :
    Saved tree (d ++ [n]) contents (tree.put (d ++ [n]) (.file contents)) := by
  have he (l' : Location) : Tree.entry? (tree.put (d ++ [n]) (.file contents)) l' =
      if l' = d ++ [n] then some (.file contents) else tree.entry? l' :=
    entry_put (List.concat_ne_nil n d) (concat_ne_aboveRoot h d) l'
  refine ⟨⟨?_, fun l => ?_⟩, he⟩
  · rw [put]
    split <;> rfl
  · rw [he l]
    split
    · rename_i hl
      subst hl
      exact ⟨fun hc => absurd hc hd, fun hc => nomatch hc⟩
    · exact Iff.rfl

/-- A file that is saved beside something that is there changes its own location alone. -/
theorem saved_of_save {above : List String} (hp : parts path = above ++ [n]) (hi : isIdle n = false)
    (hv : withoutIdle above ≠ [] → Valid (join (withoutIdle above)))
    (hr : tree.reach cwd above = .ok d) (h : tree.save cwd path contents = .ok tree') :
    Saved tree (d ++ [n]) contents tree' := by
  obtain ⟨parent, hq, hparent⟩ := parent_of_parts hp hi
  have hs : ∀ part ∈ above, '/' ∉ part.toList := fun part hm =>
    not_mem_of_mem_parts (hp ▸ List.mem_append_left _ hm)
  have hn : n ≠ "" := by
    rintro rfl
    cases hi
  rw [save, hq] at h
  simp only [Option.map_some, Option.getD_some, ensureAll_present hparent hv hs hr, ok_bind] at h
  rw [write, withoutSlashes_eq (last_ne_slash hp hn), bind_eq_ok] at h
  obtain ⟨⟨d', n'⟩, hl, h⟩ := h
  obtain ⟨-, -, above', hp', hr'⟩ := locate_eq_ok_iff.1 hl
  obtain ⟨rfl, hlast⟩ := List.append_inj' (hp.symm.trans hp') rfl
  cases hlast
  cases hr.symm.trans hr'
  dsimp only at h
  split at h
  · cases h
  · rename_i hn
    simp only [Bool.or_eq_true, beq_iff_eq, not_or] at hn
    have hput (hd : tree.entry? (d ++ [n]) ≠ some .directory) (h : (if d ++ [n] ∈ tree.closed then
        Except.error FileError.notPermitted else .ok (tree.put (d ++ [n]) (.file contents))) = .ok tree') :
        Saved tree (d ++ [n]) contents tree' := by
      split at h
      · cases h
      · cases h
        exact saved_put hn.1.2 hd
    split at h
    · cases h
    · rename_i hf
      refine hput (fun hc => ?_) h
      rw [(find_eq_ok_iff.1 hf).2] at hc
      cases hc
    · rename_i hf
      refine hput (fun hc => ?_) h
      rw [find, hc] at hf
      split at hf <;> cases hf
    · cases h

private theorem valid_directory {above : List String} (hv : Valid path) (hp : parts path = above ++ [n])
    (hne : withoutIdle above ≠ []) : Valid (join (withoutIdle above)) :=
  hv.join_front ((withoutIdle_front above).trans (hp ▸ List.prefix_append above [n])) hne

section
variable {extension name : String} (hl : tree.locate cwd path = .ok (d, n)) (hn : Proper n)
  (he : extension ≠ "") (hx : '/' ∉ extension.toList)
include hl hn he hx

/-- A file that has its name from another one, up to the extension, is saved beside it. -/
theorem saved_withExtension (h : tree.save cwd (withExtension path extension) contents = .ok tree') :
    Saved tree (d ++ [renamed n extension]) contents tree' := by
  obtain ⟨-, hv, above, hp, hr⟩ := locate_eq_ok_iff.1 hl
  exact saved_of_save (parts_withExtension hp hn hx) (isIdle_renamed he n) (valid_directory hv hp) hr h

/-- A file that is put into the directory of such a file is saved beside it too. -/
theorem saved_beside (hname : Proper name) (hs : '/' ∉ name.toList)
    (h : tree.save cwd (child (directory (withExtension path extension)) name) contents = .ok tree') :
    Saved tree (d ++ [name]) contents tree' := by
  obtain ⟨-, hv, above, hp, hr⟩ := locate_eq_ok_iff.1 hl
  obtain ⟨above', hp', hsame⟩ := parts_child (parts_withExtension hp hn hx) (isIdle_renamed he n) hs
  refine saved_of_save hp' hname.notIdle (fun hne => ?_) ((reach_congr hsame).trans hr) h
  rw [hsame.rest] at hne ⊢
  exact valid_directory hv hp hne

end

end QuizPress.Files.Tree
