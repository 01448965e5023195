import QuizPress.Proofs.Xml.Attribute

/-! References decoded twice: what the decoder of the XML standard takes, the one that keeps unknown
references takes as well, and both say the same. -/
namespace QuizPress.Xml
open Text

private theorem not_isBlank_of_numeral {radix n : Nat} {cs : List Char} (h : numeral? radix cs = some n) :
    ∀ c ∈ cs, isBlank c = false := by
  intro c hc
  rcases mem_of_numeral h c hc with rfl | hd
  · rfl
  · exact not_isBlank_of_digit hd

theorem mem_of_lookup {name : List Char} {c : Char} (h : predefined.lookup name = some c) :
    (name, c) ∈ predefined := by
  obtain ⟨before, after, he, _⟩ := List.lookup_eq_some_iff.1 h
  rw [he]
  exact List.mem_append_right _ List.mem_cons_self

/-- Known names hold no blanks. -/
theorem not_isBlank_of_referenced {name : List Char} {c : Char} (h : referenced? name = some c) :
    ∀ x ∈ name, isBlank x = false := by
  unfold referenced? at h
  split at h
  · obtain ⟨n, hn, _⟩ := Option.bind_eq_some_iff.1 h
    exact List.forall_mem_cons.2 ⟨rfl, List.forall_mem_cons.2 ⟨rfl, not_isBlank_of_numeral hn⟩⟩
  · obtain ⟨n, hn, _⟩ := Option.bind_eq_some_iff.1 h
    exact List.forall_mem_cons.2 ⟨rfl, List.forall_mem_cons.2 ⟨rfl, not_isBlank_of_numeral hn⟩⟩
  · obtain ⟨n, hn, _⟩ := Option.bind_eq_some_iff.1 h
    exact List.forall_mem_cons.2 ⟨rfl, not_isBlank_of_numeral hn⟩
  · have hp : ∀ entry ∈ predefined, ∀ x ∈ entry.1, isBlank x = false := by
      simp [predefined, isBlank]
    exact hp _ (mem_of_lookup h)

/-- A name that the standard allows stands for the same character under the more lenient rules. -/
theorem referenced_of_strictly {name : List Char} {c : Char} (h : referencedStrictly? name = some c) :
    referenced? name = some c := by
  unfold referencedStrictly? at h
  split at h
  · rename_i digits
    obtain ⟨n, hn, hc⟩ := Option.bind_eq_some_iff.1 h
    rw [referenced?, numeral_of_unsigned (Option.filter_eq_some_iff.1 hn).1]
    exact hc
  · rename_i digits hx
    obtain ⟨n, hn, hc⟩ := Option.bind_eq_some_iff.1 h
    have hu := (Option.filter_eq_some_iff.1 hn).1
    rw [referenced?, numeral_of_unsigned hu]
    · exact hc
    · exact hx
    · -- the capital letter is no decimal digit
      rintro tail rfl
      exact absurd (digit_of_unsigned hu 'X' List.mem_cons_self) (by decide)
  · rename_i hx hd
    rw [referenced?]
    · exact h
    · exact hx
    · rintro tail rfl
      exact hd _ rfl
    · exact hd

theorem unescapeKnown_cons {c : Char} (h : c ≠ '&') (cs : List Char) :
    unescapeKnown (c :: cs) = c :: unescapeKnown cs := by
  rw [unescapeKnown]
  exact fun he => h he

theorem unescapeKnown_ampersand (cs : List Char) :
    unescapeKnown ('&' :: cs) = match cs.dropWhile inName with
      | ';' :: after =>
        if (cs.takeWhile inName).isEmpty then '&' :: unescapeKnown cs
        else expansion (cs.takeWhile inName) ++ unescapeKnown after
      | _ => '&' :: unescapeKnown cs := by
  rw [unescapeKnown]
  split
  · rename_i h
    simp only [h]
  · rename_i h
    split
    · rename_i after h'
      exact absurd h' (h after)
    · rfl

theorem unescapeKnown_append {cs : List Char} (h : ∀ c ∈ cs, c ≠ '&') (rest : List Char) :
    unescapeKnown (cs ++ rest) = cs ++ unescapeKnown rest := by
  induction cs with
  | nil => rfl
  | cons c cs ih =>
    obtain ⟨hc, hcs⟩ := List.forall_mem_cons.1 h
    rw [List.cons_append, unescapeKnown_cons hc, ih hcs, List.cons_append]

/-- No name goes on behind an ampersand, so what stands in front of one is replaced for itself. -/
theorem unescapeKnown_append_ampersand (cs rest : List Char) :
    unescapeKnown (cs ++ '&' :: rest) = unescapeKnown cs ++ unescapeKnown ('&' :: rest) := by
  have hspan (cs : List Char) := span_append (p := inName) cs ('&' :: rest)
    (.inr fun c hc => by cases hc; rfl)
  fun_induction unescapeKnown cs with
  | case1 => rfl
  | case2 cs name after hd _ hempty ih =>
    rw [List.cons_append, unescapeKnown_ampersand, (hspan cs).1, (hspan cs).2, hd]
    simp only [List.cons_append]
    rw [if_pos hempty, ih]
  | case3 cs name after hd _ hempty ih =>
    rw [List.cons_append, unescapeKnown_ampersand, (hspan cs).1, (hspan cs).2, hd]
    simp only [List.cons_append]
    rw [if_neg hempty, ih, List.append_assoc]
  | case4 cs hne ih =>
    rw [List.cons_append, unescapeKnown_ampersand, (hspan cs).2]
    split
    · rename_i after h
      cases hd : cs.dropWhile inName with
      | nil =>
        rw [hd] at h
        cases h
      | cons c tail =>
        rw [hd] at h
        exact absurd hd (by rw [(List.cons.inj h).1]; exact hne tail)
    · rw [ih, List.cons_append]
  | case5 c cs hc ih => rw [List.cons_append, unescapeKnown_cons hc, ih, List.cons_append]

/-- A name with a blank in it ends there, before any semicolon. -/
private theorem dropWhile_blank {name : List Char} (hn : ∀ x ∈ name, inStrictName x = true)
    (hb : ¬ ∀ x ∈ name, isBlank x = false) (rest after : List Char) :
    (name ++ rest).dropWhile inName ≠ ';' :: after := by
  induction name with
  | nil => exact absurd (fun _ hx => by cases hx) hb
  | cons x name ih =>
    obtain ⟨hx, hn⟩ := List.forall_mem_cons.1 hn
    rw [List.cons_append, List.dropWhile_cons]
    cases hblank : isBlank x with
    | true =>
      rw [if_neg (by simp [inName, hblank])]
      rintro ⟨⟩
      cases hx
    | false =>
      have hin : inName x = true := by
        rw [inName, hblank]
        simpa [inStrictName] using hx
      rw [if_pos hin]
      exact ih hn fun h => hb (List.forall_mem_cons.2 ⟨hblank, h⟩)

/-- A reference is replaced by what it stands for if its name is known, and kept if not, be the name
empty or no name at all. -/
theorem unescapeKnown_reference {name : List Char} (hn : ∀ x ∈ name, inStrictName x = true)
    (cs : List Char) :
    unescapeKnown ('&' :: (name ++ ';' :: cs)) = expansion name ++ unescapeKnown cs := by
  have hne : ∀ x ∈ name, x ≠ ';' ∧ x ≠ '&' := fun x hx => by
    have h := hn x hx
    simpa [inStrictName] using h
  have hkept (hu : referenced? name = none) :
      '&' :: unescapeKnown (name ++ ';' :: cs) = expansion name ++ unescapeKnown cs := by
    have hsemi : unescapeKnown (';' :: cs) = ';' :: unescapeKnown cs :=
      unescapeKnown_cons (by decide) cs
    rw [unescapeKnown_append (fun x hx => (hne x hx).2), hsemi, expansion, hu]
    simp
  by_cases hb : ∀ x ∈ name, isBlank x = false
  · have hin : ∀ x ∈ name, inName x = true := fun x hx => by
      simp [inName, (hne x hx).1, (hne x hx).2, hb x hx]
    have hd : (name ++ ';' :: cs).dropWhile inName = ';' :: cs := by
      rw [List.dropWhile_append_of_pos hin]
      rfl
    have ht : (name ++ ';' :: cs).takeWhile inName = name := by
      rw [List.takeWhile_append_of_pos hin]
      simp [inName]
    rw [unescapeKnown_ampersand, hd, ht]
    cases name with
    | nil => exact hkept rfl
    | cons => rfl
  · have hu : referenced? name = none := by
      cases hr : referenced? name with
      | none => rfl
      | some c => exact absurd (not_isBlank_of_referenced hr) hb
    rw [unescapeKnown_ampersand]
    split
    · rename_i after he
      exact absurd he (dropWhile_blank hn hb _ after)
    · exact hkept hu

/-- What is escaped stands for itself, whatever stands behind it. -/
theorem unescapeKnown_flatMap_append {write : Char → List Char} (h : Faithful write)
    (cs rest : List Char) : unescapeKnown (cs.flatMap write ++ rest) = cs ++ unescapeKnown rest := by
  induction cs with
  | nil => rfl
  | cons c cs ih =>
    rw [List.flatMap_cons, List.append_assoc]
    rcases h c with ⟨hc, hw⟩ | ⟨name, hw, hn, hr⟩
    · rw [hw, List.singleton_append, unescapeKnown_cons hc, ih, List.cons_append]
    · rw [hw, List.append_assoc, List.cons_append, List.singleton_append,
        unescapeKnown_reference (List.all_eq_true.1 hn), expansion, referenced_of_strictly hr, ih]
      rfl

/-- Where the strict decoder has a value, the lenient one has the same. -/
theorem unescapeKnown_of_unescape {cs value : List Char} (h : unescape? cs = some value) :
    unescapeKnown cs = value := by
  fun_induction unescape? cs generalizing value with
  | case1 =>
    cases h
    rw [unescapeKnown]
  | case2 cs after hd hl ih =>
    obtain ⟨c, hc, h⟩ := Option.bind_eq_some_iff.1 h
    obtain ⟨value, hv, rfl⟩ := Option.map_eq_some_iff.1 h
    have hs := List.takeWhile_append_dropWhile (p := inStrictName) (l := cs)
    have hn : ∀ x ∈ cs.takeWhile inStrictName, inStrictName x = true :=
      List.all_eq_true.1 List.all_takeWhile
    rw [← hs, hd, unescapeKnown_reference hn, ih hv, expansion, referenced_of_strictly hc]
    rfl
  | case3 => cases h
  | case4 c cs hc ih =>
    obtain ⟨value, hv, rfl⟩ := Option.map_eq_some_iff.1 h
    rw [unescapeKnown_cons hc, ih hv]

/-- An attribute value stands for what it says with the known references replaced, whichever decoder
takes it. -/
theorem attributeValue_eq (written : List Char) : attributeValue written = unescapeKnown written := by
  rw [attributeValue]
  cases h : unescape? written with
  | none => rfl
  | some value => exact (unescapeKnown_of_unescape h).symm

/-- The first attribute of a tag has its value with the known references replaced. -/
theorem readAttributes_of_written {seen : List (List Glyph)} {g : Glyph} {gs : List Glyph} {w : Written}
    {value : String} (hg : isSpace g = false) (hw : written? g gs = some w) (hs : w.key ∉ seen)
    (hv : strict? w.value = some value) :
    readAttributes seen (g :: gs) = (readAttributes (w.key :: seen) w.rest).map
      ((lossy w.key, .ofList (unescapeKnown value.toList)) :: ·) := by
  rw [readAttributes_eq, List.dropWhile_cons, if_neg (by simp [hg])]
  simp only [hw, hs, hv, if_false, attributeValue_eq]
  cases readAttributes (w.key :: seen) w.rest <;> rfl

end QuizPress.Xml
