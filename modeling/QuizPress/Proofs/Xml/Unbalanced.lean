import QuizPress.Proofs.Xml.Legible

/-! Written tags whose quotes do not close: they are cut off where they should not be, and other
attributes are read from them. -/
namespace QuizPress.Xml
open Text

private def written (attributes : Attributes) : List Glyph :=
  glyphs (writeAttributes (escapeWith markedChar) attributes)

/-- The tail of a tag from which something else is read than what was written: it ends too early or
too late, and what it lacks or has too much is not blank. -/
private def Missed (attributes : Attributes) (tail : List Glyph) : Prop :=
  ∃ extra, (∃ g ∈ extra, isSpace g = false) ∧
    (written attributes = tail ++ extra ∨ tail = written attributes ++ extra)

private theorem ne_of_missed {attributes attributes' : Attributes} {tail : List Glyph}
    (hl : Legible attributes) (hm : Missed attributes tail)
    (h : readAttributes [] tail = .ok attributes') : attributes' ≠ attributes := by
  rintro rfl
  obtain ⟨extra, ⟨g, hg, hs⟩, hw⟩ := hm
  -- in both cases nothing can be read from what there is too much
  suffices hr : ∃ seen, readAttributes seen extra = .ok [] by
    obtain ⟨seen, hr⟩ := hr
    rw [blank_of_readAttributes hr g hg] at hs
    cases hs
  have hq : ∀ c, '"' ∉ markedChar c := fun c h => (mem_markedChar h).2.2.1 rfl
  have cancel {result : Except Fault Attributes}
      (hc : .ok attributes' = result.map (attributes' ++ ·)) : result = .ok [] := by
    cases result with
    | error fault => cases hc
    | ok others =>
      have he := Except.ok.inj hc
      rw [List.self_eq_append_right] at he
      rw [he]
  rcases hw with hw | rfl
  · obtain ⟨seen, ha⟩ := readAttributes_append h
    have he := ha extra
    rw [← hw, written, readAttributes_writeAttributes faithful_markedChar hq hl] at he
    exact ⟨seen, cancel he⟩
  · have hs' : ∀ a ∈ attributes', glyphs a.1 ∉ ([] : List (List Glyph)) := fun _ _ => List.not_mem_nil
    rw [written, readAttributes_writeAttributes_append faithful_markedChar hq hl hs' extra] at h
    exact ⟨_, cancel h.symm⟩

private theorem bracket_not_mem_name {name : String} (hn : isName name = true) :
    Glyph.char '>' ∉ glyphs name := by
  intro hm
  have hi := isInert_of_isName hn _ hm
  cases hi

/-- Where an unbalanced tag is cut off instead of at its own bracket. -/
private theorem tail_of_cutTag {name : String} {attributes : Attributes} {content after rest : List Glyph}
    (hn : isName name = true) (hb : ¬ Balanced attributes)
    (hc : cutTag none (glyphs name ++ (written attributes ++ .char '/' :: .char '>' :: rest)) =
      .ok (content, after)) :
    ∃ tail more, content = glyphs name ++ tail ∧
      (written attributes = tail ++ .char '>' :: more ∨
        tail = written attributes ++ .char '/' :: .char '>' :: more) := by
  obtain ⟨he, hq⟩ := eq_of_cutTag hc
  have hne : content ≠ glyphs name ++ written attributes ++ [.char '/'] := by
    rintro rfl
    rw [quoteThrough_append, written, quoteThrough_tag hn] at hq
    refine hb ?_
    cases ht : quoteThrough none (attributes.flatMap fun a => glyphs a.1) with
    | none =>
      rw [ht] at hq
      cases hq
    | some quote =>
      have hi : quoteThrough quote [.char '/'] = some quote :=
        quoteThrough_inert (isQuote_quoteThrough (.inl rfl) ht) (by simp [isInert])
      rw [ht, Option.bind_some, hi] at hq
      rw [Balanced, ht, hq]
  rcases List.append_eq_append_iff.1 he with ⟨tail, ho, hr⟩ | ⟨extra, ho, hr⟩
  · rcases List.append_eq_append_iff.1 hr with ⟨extra, rfl, hs⟩ | ⟨extra, hw, hs⟩
    · -- the slash is passed, and with it the bracket behind it
      rcases extra with _ | ⟨g, _ | ⟨g', more⟩⟩
      · cases hs
      · cases hs
        rw [List.append_assoc] at hne
        exact absurd ho hne
      · cases hs
        exact ⟨_, more, ho, .inr rfl⟩
    · cases extra with
      | nil => cases hs
      | cons g more =>
        cases hs
        exact ⟨tail, more, ho, .inl hw⟩
  · exfalso
    cases extra with
    | nil =>
      cases attributes with
      | nil => exact hb rfl
      | cons a others =>
        rw [written, glyphs_writeAttributes_cons] at hr
        cases hr
    | cons g extra =>
      cases hr
      exact bracket_not_mem_name hn (by simp [ho])

private theorem name_of_tail {name : String} {tail : List Glyph} (hn : isName name = true)
    (ht : ∀ g gs, tail = g :: gs → isSpace g = true) :
    lossy (tagName (glyphs name ++ tail)) = name ∧
      tagAttributes (glyphs name ++ tail) = readAttributes [] tail := by
  have hs : ∀ g ∈ glyphs name, (!isSpace g) = true := by
    intro g hg
    rw [isSpace_of_isName hn g hg]
    rfl
  have hb : tail.takeWhile (!isSpace ·) = [] ∧ tail.dropWhile (!isSpace ·) = tail := by
    cases tail with
    | nil => exact ⟨rfl, rfl⟩
    | cons g gs => simp [ht g gs rfl]
  rw [tagName, tagAttributes, List.takeWhile_append_of_pos hs, List.dropWhile_append_of_pos hs, hb.1, hb.2,
    List.append_nil, lossy_glyphs]
  exact ⟨rfl, rfl⟩

private theorem blank_of_missed {attributes : Attributes} {tail : List Glyph} (hb : ¬ Balanced attributes)
    (hm : Missed attributes tail) : ∀ g gs, tail = g :: gs → isSpace g = true := by
  rintro g gs rfl
  obtain ⟨extra, _, hw⟩ := hm
  cases attributes with
  | nil => exact absurd rfl hb
  | cons a others =>
    rw [written, glyphs_writeAttributes_cons] at hw
    have hg : Glyph.char ' ' = g := by
      rcases hw with hw | hw
      · exact (List.cons.inj hw).1
      · exact (List.cons.inj hw).1.symm
    rw [← hg]
    rfl

/-- Other attributes are read from an unbalanced tag than were written in it. -/
theorem readOpening_unbalanced {name : String} {attributes : Attributes} {content after rest : List Glyph}
    {opened opened' : List (List Glyph)} {event : Event} (hn : isName name = true)
    (hl : Legible attributes) (hb : ¬ Balanced attributes)
    (hc : cutTag none (glyphs name ++
        (glyphs (writeAttributes (escapeWith markedChar) attributes) ++ .char '/' :: .char '>' :: rest)) =
      .ok (content, after))
    (hr : readOpening opened content = .ok (event, opened')) :
    ∃ attributes', attributes' ≠ attributes ∧
      (event = .start name attributes' ∨ event = .empty name attributes') := by
  obtain ⟨tail, more, rfl, hw⟩ := tail_of_cutTag hn hb hc
  rcases readOpening_cases hr with ⟨attributes', hs, rfl, _, ha⟩ | ⟨attributes', rfl, _, ha⟩
  · -- the slash at the end of the content is not the one that was written
    obtain ⟨init, rfl⟩ : ∃ init, tail = init ++ [.char '/'] := by
      rcases List.eq_nil_or_concat tail with rfl | ⟨init, g, rfl⟩
      · rw [List.append_nil] at hs
        obtain ⟨c, he, hc⟩ := mem_glyphs_of_isName hn (List.mem_of_getLast? hs)
        cases he
        cases hc
      · rw [List.concat_eq_append, ← List.append_assoc, List.getLast?_concat] at hs
        cases hs
        exact ⟨init, List.concat_eq_append⟩
    have hm : Missed attributes init := by
      rcases hw with hw | hw
      · refine ⟨.char '/' :: .char '>' :: more, ⟨.char '/', by simp, rfl⟩, .inl ?_⟩
        simpa using hw
      · refine ⟨(.char '/' :: .char '>' :: more).dropLast, ⟨.char '/', by simp, rfl⟩, .inr ?_⟩
        have hd := congrArg List.dropLast hw
        rwa [List.dropLast_concat, List.dropLast_append_cons] at hd
    obtain ⟨hname, hattr⟩ := name_of_tail hn (blank_of_missed hb hm)
    rw [← List.append_assoc, List.dropLast_concat] at ha ⊢
    rw [hattr] at ha
    rw [hname]
    exact ⟨attributes', ne_of_missed hl hm ha, .inr rfl⟩
  · have hm : Missed attributes tail := by
      rcases hw with hw | hw
      · exact ⟨.char '>' :: more, ⟨.char '>', by simp, rfl⟩, .inl hw⟩
      · exact ⟨.char '/' :: .char '>' :: more, ⟨.char '/', by simp, rfl⟩, .inr hw⟩
    obtain ⟨hname, hattr⟩ := name_of_tail hn (blank_of_missed hb hm)
    rw [hattr] at ha
    rw [hname]
    exact ⟨attributes', ne_of_missed hl hm ha, .inl rfl⟩

end QuizPress.Xml
