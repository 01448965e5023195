import QuizPress.Proofs.Xml.Onward

/-! Tags with plain names: whatever the values of the attributes are, the tag is cut off where it ends,
and it is read as the event that was written. -/
namespace QuizPress.Xml
open Text

/-- A value without double quotes ends where it is closed, whatever else it holds. -/
theorem quoteThrough_value {value : List Glyph} (h : .char '"' ∉ value) :
    quoteThrough (some '"') value = some (some '"') := by
  induction value with
  | nil => rfl
  | cons g value ih =>
    rw [List.mem_cons, not_or] at h
    rw [quoteThrough, if_neg (by simp), quoteAfter, if_neg (Ne.symm h.1)]
    exact ih h.2

/-- Between its quotes a value is part of the tag as a whole. -/
theorem quoteThrough_between {value : List Glyph} (h : .char '"' ∉ value) :
    quoteThrough none (.char '"' :: (value ++ [.char '"'])) = some none := by
  simp [quoteThrough, quoteAfter, quoteThrough_append, quoteThrough_value h]

section
variable {write : Char → List Char} (hq : ∀ c, '"' ∉ write c) {name : String} {attributes : Attributes}
include hq

theorem quoteThrough_attributes (hp : ∀ a ∈ attributes, isName a.1 = true) :
    quoteThrough none (glyphs (writeAttributes (escapeWith write) attributes)) = some none := by
  induction attributes with
  | nil => rfl
  | cons a others ih =>
    obtain ⟨name, value⟩ := a
    obtain ⟨hname, hothers⟩ := List.forall_mem_cons.1 hp
    have hv := quoteThrough_between (quote_not_mem_escapeWith hq value)
    have hs : glyphs (writeAttributes (escapeWith write) ((name, value) :: others)) =
        (.char ' ' :: (glyphs name ++ [.char '='])) ++
          (.char '"' :: (glyphs (escapeWith write value) ++ [.char '"'])) ++
          glyphs (writeAttributes (escapeWith write) others) := by
      simp [glyphs_writeAttributes_cons]
    have hi : quoteThrough none (.char ' ' :: (glyphs name ++ [.char '='])) = some none := by
      apply quoteThrough_inert (.inl rfl)
      intro g hg
      simp only [List.mem_cons, List.mem_append, List.not_mem_nil, or_false] at hg
      rcases hg with rfl | hg | rfl
      · rfl
      · exact isInert_of_isName hname g hg
      · rfl
    rw [hs, quoteThrough_append, quoteThrough_append, hi, Option.bind_some, hv, Option.bind_some,
      ih hothers]

/-- With plain names no value can end the tag or leave a quote open. -/
theorem quoteThrough_named (hn : isName name = true) (hp : ∀ a ∈ attributes, isName a.1 = true) :
    quoteThrough none (glyphs name ++ glyphs (writeAttributes (escapeWith write) attributes)) =
      some none := by
  rw [quoteThrough_append, quoteThrough_inert (.inl rfl) (isInert_of_isName hn), Option.bind_some,
    quoteThrough_attributes hq hp]

variable (hf : Faithful write) (hn : isName name = true) (hl : Legible attributes)
  (he : quoteThrough none (glyphs name ++ glyphs (writeAttributes (escapeWith write) attributes)) =
    some none)
  (size : Nat) (opened : List (List Glyph)) (rest : List Glyph)
include hf hn hl he

theorem readFrom_opening :
    readFrom size opened
        (glyphs ("<" ++ name ++ writeAttributes (escapeWith write) attributes ++ ">") ++ rest) =
      (readFrom size (glyphs name :: opened) rest).prepend [.start name attributes] := by
  have hs : glyphs ("<" ++ name ++ writeAttributes (escapeWith write) attributes ++ ">") ++ rest =
      .char '<' :: (glyphs name ++
        (glyphs (writeAttributes (escapeWith write) attributes) ++ .char '>' :: rest)) := by
    simp [glyphs]
  have hm : mark? opened
        (.opening (glyphs name ++ glyphs (writeAttributes (escapeWith write) attributes))) =
      some (some (.start name attributes), glyphs name :: opened) := by
    rw [mark?, readOpening_start hf hq hn hl]
    rfl
  rw [hs, readFrom_ok (cutPiece_named hn he rest) hm]
  rfl

theorem readFrom_lone :
    readFrom size opened
        (glyphs ("<" ++ name ++ writeAttributes (escapeWith write) attributes ++ "/>") ++ rest) =
      (readFrom size opened rest).prepend [.empty name attributes] := by
  have hs : glyphs ("<" ++ name ++ writeAttributes (escapeWith write) attributes ++ "/>") ++ rest =
      .char '<' :: (glyphs name ++
        (glyphs (writeAttributes (escapeWith write) attributes) ++ [.char '/'] ++ .char '>' :: rest)) := by
    simp [glyphs]
  have hend : quoteThrough none
      (glyphs name ++ (glyphs (writeAttributes (escapeWith write) attributes) ++ [.char '/'])) =
      some none := by
    rw [← List.append_assoc, quoteThrough_append, he]
    rfl
  have hm : mark? opened (.opening
        (glyphs name ++ (glyphs (writeAttributes (escapeWith write) attributes) ++ [.char '/']))) =
      some (some (.empty name attributes), opened) := by
    rw [mark?, ← List.append_assoc, readOpening_empty hf hq hn hl]
    rfl
  rw [hs, readFrom_ok (cutPiece_named hn hend rest) hm]
  rfl

end

theorem readFrom_ending {name : String} (hn : isName name = true) (size : Nat)
    (opened : List (List Glyph)) (rest : List Glyph) :
    readFrom size (glyphs name :: opened) (glyphs ("</" ++ name ++ ">") ++ rest) =
      (readFrom size opened rest).prepend [.close name] := by
  have hs : glyphs ("</" ++ name ++ ">") ++ rest =
      .char '<' :: .char '/' :: (glyphs name ++ .char '>' :: rest) := by
    simp [glyphs]
  have hm : mark? (glyphs name :: opened) (.closing (glyphs name)) =
      some (some (.close name), opened) := by
    rw [mark?, readClosing_name hn]
    rfl
  rw [hs, readFrom_ok (cutPiece_closing (quoteThrough_inert (.inl rfl) (isInert_of_isName hn)) rest) hm]
  rfl

end QuizPress.Xml
