import QuizPress.Xml.Escape
import QuizPress.Xml.Reference

/-! Escaped text: what an attribute value says is the text that was escaped in it. -/
namespace QuizPress.Xml

theorem escapeWith_append (write : Char → List Char) (s t : String) :
    escapeWith write (s ++ t) = escapeWith write s ++ escapeWith write t := by
  rw [escapeWith, String.toList_append, List.flatMap_append, String.ofList_append]
  rfl

theorem writeAttributes_cons (escape : String → String) (name value : String)
    (others : List (String × String)) :
    writeAttributes escape ((name, value) :: others) =
      " " ++ name ++ "=\"" ++ escape value ++ "\"" ++ writeAttributes escape others :=
  String.join_cons

/-- Every character is written as itself or as a reference to it. -/
def Faithful (write : Char → List Char) : Prop :=
  ∀ c, (c ≠ '&' ∧ write c = [c]) ∨
    ∃ name, write c = '&' :: name ++ [';'] ∧ name.all inStrictName = true ∧
      referencedStrictly? name = some c

theorem unescape_cons {c : Char} (h : c ≠ '&') (cs : List Char) :
    unescape? (c :: cs) = (unescape? cs).map (c :: ·) := by
  rw [unescape?]
  intro hc
  exact absurd hc h

theorem unescape_reference {name : List Char} (hn : ∀ x ∈ name, inStrictName x) (cs : List Char) :
    unescape? ('&' :: (name ++ ';' :: cs)) =
      (referencedStrictly? name).bind fun c => (unescape? cs).map (c :: ·) := by
  have hd : (name ++ ';' :: cs).dropWhile inStrictName = ';' :: cs := by
    rw [List.dropWhile_append_of_pos hn]
    rfl
  have ht : (name ++ ';' :: cs).takeWhile inStrictName = name := by
    rw [List.takeWhile_append_of_pos hn]
    simp [inStrictName]
  rw [unescape?]
  split
  · rename_i after he
    rw [hd] at he
    cases he
    rw [ht]
  · rename_i hne
    exact absurd hd (hne cs)

/-- What is escaped stands for itself, whatever stands behind it. -/
theorem unescape_flatMap_append {write : Char → List Char} (h : Faithful write) (cs rest : List Char) :
    unescape? (cs.flatMap write ++ rest) = (unescape? rest).map (cs ++ ·) := by
  induction cs with
  | nil => cases hr : unescape? rest <;> simp [hr]
  | cons c cs ih =>
    rw [List.flatMap_cons, List.append_assoc]
    rcases h c with ⟨hc, hw⟩ | ⟨name, hw, hn, hr⟩
    · rw [hw, List.singleton_append, unescape_cons hc, ih, Option.map_map]
      rfl
    · rw [hw, List.append_assoc, List.cons_append, List.singleton_append,
        unescape_reference (List.all_eq_true.1 hn), hr, ih, Option.bind_some, Option.map_map]
      rfl

theorem unescape_flatMap {write : Char → List Char} (h : Faithful write) (cs : List Char) :
    unescape? (cs.flatMap write) = some cs := by
  have hcs := unescape_flatMap_append h cs []
  rwa [List.append_nil, unescape?, Option.map_some, List.append_nil] at hcs

/-- An escaped text stands for the text itself. -/
theorem attributeValue_escapeWith {write : Char → List Char} (h : Faithful write) (s : String) :
    attributeValue (escapeWith write s).toList = s.toList := by
  rw [attributeValue, escapeWith, String.toList_ofList, unescape_flatMap h]
  rfl

theorem faithful_quotedChar : Faithful quotedChar := by
  intro c
  unfold quotedChar
  split
  · exact .inr ⟨['a', 'm', 'p'], rfl, by decide, by decide⟩
  · exact .inr ⟨['l', 't'], rfl, by decide, by decide⟩
  · exact .inr ⟨['q', 'u', 'o', 't'], rfl, by decide, by decide⟩
  · rename_i hne _ _
    exact .inl ⟨hne, rfl⟩

theorem faithful_textChar : Faithful textChar := by
  intro c
  unfold textChar
  split
  · exact .inr ⟨['g', 't'], rfl, by decide, by decide⟩
  · exact faithful_quotedChar _

theorem faithful_markedChar : Faithful markedChar := by
  intro c
  unfold markedChar
  split
  · exact .inr ⟨['a', 'p', 'o', 's'], rfl, by decide, by decide⟩
  · exact faithful_textChar _

private def isInside (c : Char) : Bool := c != '<' && c != '"'

private theorem mem_inside {cs : List Char} (hp : cs.all isInside = true) {x : Char} (h : x ∈ cs) :
    x ≠ '<' ∧ x ≠ '"' := by
  have hx := List.all_eq_true.1 hp x h
  rwa [isInside, Bool.and_eq_true, bne_iff_ne, bne_iff_ne] at hx

/-- What is written for a character opens no tag and closes no value. -/
theorem mem_quotedChar {c x : Char} (h : x ∈ quotedChar c) : x ≠ '<' ∧ x ≠ '"' := by
  unfold quotedChar at h
  split at h
  · exact mem_inside (by decide) h
  · exact mem_inside (by decide) h
  · exact mem_inside (by decide) h
  · rename_i hl hq
    cases List.mem_singleton.1 h
    exact ⟨hl, hq⟩

theorem mem_textChar {c x : Char} (h : x ∈ textChar c) : x ≠ '<' ∧ x ≠ '"' := by
  unfold textChar at h
  split at h
  · exact mem_inside (by decide) h
  · exact mem_quotedChar h

private def isPlain (c : Char) : Bool := c != '<' && c != '>' && c != '"' && c != '\''

/-- What is written for a character holds no bracket and no quote. -/
theorem mem_markedChar {c x : Char} (h : x ∈ markedChar c) :
    x ≠ '<' ∧ x ≠ '>' ∧ x ≠ '"' ∧ x ≠ '\'' := by
  suffices hp : (markedChar c).all isPlain = true by
    have hx := List.all_eq_true.1 hp x h
    simp only [isPlain, Bool.and_eq_true, bne_iff_ne] at hx
    exact ⟨hx.1.1.1, hx.1.1.2, hx.1.2, hx.2⟩
  unfold markedChar textChar quotedChar
  split
  · decide
  · split
    · decide
    · split
      · decide
      · decide
      · decide
      · simp_all [isPlain]

theorem mem_escapeWith_markedChar {s : String} {x : Char} (h : x ∈ (escapeWith markedChar s).toList) :
    x ≠ '<' ∧ x ≠ '>' ∧ x ≠ '"' ∧ x ≠ '\'' := by
  rw [escapeWith, String.toList_ofList, List.mem_flatMap] at h
  obtain ⟨c, _, hx⟩ := h
  exact mem_markedChar hx

end QuizPress.Xml
