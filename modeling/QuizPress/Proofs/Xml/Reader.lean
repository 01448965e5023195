import QuizPress.Proofs.Xml.Markup
import QuizPress.Xml.Reader

/-! The events of tags that were written: names and attributes come back as they were. -/
namespace QuizPress.Xml
open Text

def Event.attributes : Event → Attributes
  | start _ attributes | empty _ attributes => attributes
  | close _ | text _ | reference _ => []

theorem tagName_append {name : String} (h : isName name = true) (attributes : Attributes)
    (escape : String → String) :
    tagName (glyphs name ++ glyphs (writeAttributes escape attributes)) = glyphs name ∧
      (glyphs name ++ glyphs (writeAttributes escape attributes)).dropWhile (!isSpace ·) =
        glyphs (writeAttributes escape attributes) := by
  have hn : ∀ g ∈ glyphs name, (!isSpace g) = true := by
    intro g hg
    rw [isSpace_of_isName h g hg]
    rfl
  rw [tagName, List.takeWhile_append_of_pos hn, List.dropWhile_append_of_pos hn]
  cases attributes with
  | nil => simp
  | cons a others =>
    have hb : isSpace (.char ' ') = true := rfl
    rw [glyphs_writeAttributes_cons]
    simp [hb]

/-- A tag whose attributes are written out does not end with a slash. -/
theorem getLast_tag {name : String} (h : isName name = true) (attributes : Attributes)
    (escape : String → String) :
    (glyphs name ++ glyphs (writeAttributes escape attributes)).getLast? ≠ some (.char '/') := by
  have ht : ∀ attributes : Attributes, attributes ≠ [] →
      (glyphs (writeAttributes escape attributes)).getLast? = some (.char '"') := by
    intro attributes hne
    induction attributes with
    | nil => exact absurd rfl hne
    | cons a others ih =>
      rw [glyphs_writeAttributes_cons]
      cases others with
      | nil => simp [List.getLast?_cons, List.getLast?_append]
      | cons b others =>
        have hl := ih (by simp)
        simp only [List.getLast?_cons, List.getLast?_append, hl]
        simp
  cases attributes with
  | nil =>
    intro hl
    rw [glyphs_writeAttributes_nil, List.append_nil] at hl
    obtain ⟨c, he, hc⟩ := mem_glyphs_of_isName h (List.mem_of_getLast? hl)
    cases he
    cases hc
  | cons a others =>
    rw [List.getLast?_append, ht _ (by simp)]
    simp

section Written
variable {write : Char → List Char} {name : String} {attributes : Attributes}

theorem readOpening_start (hf : Faithful write) (hq : ∀ c, '"' ∉ write c) (hn : isName name = true)
    (hl : Legible attributes) (opened : List (List Glyph)) :
    readOpening opened (glyphs name ++ glyphs (writeAttributes (escapeWith write) attributes)) =
      .ok (.start name attributes, glyphs name :: opened) := by
  obtain ⟨ht, hd⟩ := tagName_append hn attributes (escapeWith write)
  rw [readOpening, if_neg (getLast_tag hn attributes (escapeWith write)), tagAttributes, hd,
    readAttributes_writeAttributes hf hq hl, ht, lossy_glyphs]
  rfl

theorem readOpening_empty (hf : Faithful write) (hq : ∀ c, '"' ∉ write c) (hn : isName name = true)
    (hl : Legible attributes) (opened : List (List Glyph)) :
    readOpening opened
        (glyphs name ++ glyphs (writeAttributes (escapeWith write) attributes) ++ [.char '/']) =
      .ok (.empty name attributes, opened) := by
  obtain ⟨ht, hd⟩ := tagName_append hn attributes (escapeWith write)
  rw [readOpening, if_pos (by simp)]
  simp only [List.dropLast_concat, tagAttributes, hd, readAttributes_writeAttributes hf hq hl, ht,
    lossy_glyphs]
  rfl

end Written

theorem readClosing_name {name : String} (hn : isName name = true) (opened : List (List Glyph)) :
    readClosing (glyphs name :: opened) (glyphs name) = .ok (.close name, opened) := by
  have he : endName (glyphs name) = glyphs name := by
    have hr : (glyphs name).reverse.dropWhile isSpace = (glyphs name).reverse := by
      cases hg : (glyphs name).reverse with
      | nil => rfl
      | cons g gs =>
        have hm : g ∈ glyphs name := by
          rw [← List.mem_reverse, hg]
          simp
        simp [isSpace_of_isName hn g hm]
    rw [endName, hr]
    split
    · rfl
    · rw [List.reverse_reverse]
  rw [readClosing]
  simp only [he, if_true, lossy_glyphs]

/-- Only the names of the attributes count for the quotes in a tag. -/
theorem quoteThrough_tag {name : String} (hn : isName name = true) (attributes : Attributes) :
    quoteThrough none (glyphs name ++ glyphs (writeAttributes (escapeWith markedChar) attributes)) =
      quoteThrough none (attributes.flatMap fun a => glyphs a.1) := by
  rw [quoteThrough_append, quoteThrough_inert (.inl rfl) (isInert_of_isName hn), Option.bind_some,
    quoteThrough_writeAttributes isInert_escapeWith_markedChar attributes (.inl rfl)]

/-- The content of a tag leaves no quote open if its attributes are balanced. -/
theorem quoteThrough_balanced {name : String} (hn : isName name = true) {attributes : Attributes}
    (hb : Balanced attributes) :
    quoteThrough none (glyphs name ++ glyphs (writeAttributes (escapeWith markedChar) attributes)) =
      some none := by
  rw [quoteThrough_tag hn]
  exact hb

theorem ne_mark_of_isNameChar {c : Char} (h : isNameChar c = true) : c ≠ '!' ∧ c ≠ '?' ∧ c ≠ '/' :=
  ⟨ne_of_isNameChar h rfl, ne_of_isNameChar h rfl, ne_of_isNameChar h rfl⟩

/-- A tag that begins with a plain name is cut off at the first bracket outside of quotes. -/
theorem cutPiece_named {name : String} (hn : isName name = true) {tail : List Glyph}
    (hq : quoteThrough none (glyphs name ++ tail) = some none) (rest : List Glyph) :
    cutPiece (.char '<') (glyphs name ++ (tail ++ .char '>' :: rest)) =
      .ok (.opening (glyphs name ++ tail), rest) := by
  obtain ⟨c, gs, hg, hc⟩ := glyphs_of_isName hn
  rw [hg] at hq ⊢
  have h := cutPiece_opening (ne_mark_of_isNameChar hc) hq rest
  simpa using h

end QuizPress.Xml
