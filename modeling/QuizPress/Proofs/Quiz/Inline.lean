import Mathlib.Data.List.DropRight
import QuizPress.Proofs.Quiz.Foreign

/-! Inline markup: elements without meaning that can be read again as they are written. What is left of
their text without the blanks around it is the text of inline markup as well. -/
namespace QuizPress.Quiz
open Text Xml Builder

/-- A reference that is written again as it was read: to a character that begins neither a tag nor a
reference, or under a name that is not known. -/
def isInlineReference (name : String) : Bool :=
  match referenced? name.toList with
  | some c => isText (.char c)
  | none => name.toList.all fun c => isReference (.char c)

namespace Content

/-- Inline markup: no element has a meaning, the names of the elements are plain, and what is said between
the tags begins neither a tag nor a reference. Of the attributes of a tag something is known. -/
def Inline (P : Attributes → Prop) : Content → Prop
  | nil => True
  | text content rest => (∀ c ∈ content.toList, isText (.char c) = true) ∧ rest.Inline P
  | reference name rest => isInlineReference name = true ∧ rest.Inline P
  | empty name attributes rest =>
    (isName name = true ∧ Element.ofName? name = none ∧ P attributes) ∧ rest.Inline P
  | element name attributes inner rest =>
    (isName name = true ∧ Element.ofName? name = none ∧ P attributes) ∧ inner.Inline P ∧ rest.Inline P

variable {P Q : Attributes → Prop} {content : Content}

instance [DecidablePred P] : DecidablePred (Inline P) := go
where
  go : (content : Content) → Decidable (content.Inline P)
    | nil => isTrue trivial
    | text content rest =>
      have := List.decidableBAll (fun c => isText (.char c) = true) content.toList
      have := go rest
      inferInstanceAs (Decidable (_ ∧ _))
    | reference _ rest => have := go rest; inferInstanceAs (Decidable (_ ∧ _))
    | empty _ _ rest => have := go rest; inferInstanceAs (Decidable (_ ∧ _))
    | element _ _ inner rest =>
      have := go inner
      have := go rest
      inferInstanceAs (Decidable (_ ∧ _ ∧ _))

/-- What the events of a content say of its attributes can be added to what is known of them. -/
theorem Inline.mono (h : content.Inline P)
    (hq : ∀ event ∈ content.events, P event.attributes → Q event.attributes) : content.Inline Q := by
  induction content with
  | nil => trivial
  | text _ rest ih | reference _ rest ih => exact ⟨h.1, ih h.2 fun e he => hq e (List.mem_cons_of_mem _ he)⟩
  | empty name attributes rest ih =>
    obtain ⟨⟨hn, hu, ha⟩, hr⟩ := h
    exact ⟨⟨hn, hu, hq (.empty name attributes) List.mem_cons_self ha⟩,
      ih hr fun e he => hq e (List.mem_cons_of_mem _ he)⟩
  | element name attributes inner rest ihi ihr =>
    obtain ⟨⟨hn, hu, ha⟩, hi, hr⟩ := h
    exact ⟨⟨hn, hu, hq (.start name attributes) List.mem_cons_self ha⟩,
      ihi hi fun e he => hq e (List.mem_cons_of_mem _ (List.mem_append_left _ he)),
      ihr hr fun e he => hq e (List.mem_cons_of_mem _ (List.mem_append_right _ (List.mem_cons_of_mem _ he)))⟩

theorem Inline.foreign (h : content.Inline P) : content.Foreign := by
  induction content with
  | nil => trivial
  | text _ rest ih | reference _ rest ih => exact ih h.2
  | empty name attributes rest ih => exact ⟨h.1.2.1, ih h.2⟩
  | element name attributes inner rest ihi ihr => exact ⟨h.1.2.1, ihi h.2.1, ihr h.2.2⟩

end Content

structure Solid (cs : List Char) : Prop where
  head : ∃ c, cs.head? = some c ∧ isBlank c = false
  last : ∃ c, cs.getLast? = some c ∧ isBlank c = false

theorem Solid.dropWhile {cs : List Char} (h : Solid cs) (rest : List Char) :
    (cs ++ rest).dropWhile isBlank = cs ++ rest := by
  obtain ⟨c, hc, hb⟩ := h.head
  obtain ⟨cs, rfl⟩ := List.head?_eq_some_iff.1 hc
  rw [List.cons_append, List.dropWhile_cons, if_neg (by simp [hb])]

private theorem rdropWhile_append (cs rest : List Char) :
    (cs ++ rest).rdropWhile isBlank =
      if rest.rdropWhile isBlank = [] then cs.rdropWhile isBlank else cs ++ rest.rdropWhile isBlank := by
  simp only [List.rdropWhile, List.reverse_append, List.dropWhile_append, List.isEmpty_iff,
    List.reverse_eq_nil_iff]
  split <;> simp

theorem Solid.rdropWhile {cs : List Char} (h : Solid cs) (rest : List Char) :
    (cs ++ rest).rdropWhile isBlank = cs ++ rest.rdropWhile isBlank := by
  have hs : cs.rdropWhile isBlank = cs := by
    obtain ⟨c, hc, hb⟩ := h.last
    refine List.rdropWhile_eq_self_iff.2 fun hne => ?_
    rw [List.getLast?_eq_some_getLast hne] at hc
    rw [Option.some.inj hc, hb]
    exact Bool.false_ne_true
  rw [rdropWhile_append]
  split
  · rename_i hr
    rw [hs, hr, List.append_nil]
  · rfl

/-- Blanks are dropped on either side of what neither begins nor ends with one. -/
theorem Solid.trimmed {cs : List Char} (h : Solid cs) (before after : List Char) :
    Text.trimmed (before ++ cs ++ after) = before.dropWhile isBlank ++ cs ++ after.rdropWhile isBlank := by
  have hfront : (before ++ (cs ++ after)).dropWhile isBlank = before.dropWhile isBlank ++ (cs ++ after) := by
    rw [List.dropWhile_append]
    split
    · rename_i he
      rw [h.dropWhile, List.isEmpty_iff.1 he, List.nil_append]
    · rfl
  have hne : cs ++ after.rdropWhile isBlank ≠ [] := by
    obtain ⟨c, hc, _⟩ := h.head
    obtain ⟨cs, rfl⟩ := List.head?_eq_some_iff.1 hc
    exact List.cons_ne_nil _ _
  rw [Text.trimmed, ← List.rdropWhile, List.append_assoc, hfront, rdropWhile_append, h.rdropWhile,
    if_neg hne, List.append_assoc]

/-- What a reference says is a blank or neither begins nor ends with one. -/
theorem solid_or_blank (name : List Char) :
    Solid (expansion name) ∨ ∃ c, isBlank c = true ∧ expansion name = [c] := by
  unfold expansion
  cases referenced? name with
  | none => exact .inl ⟨⟨'&', rfl, rfl⟩, ';', by simp [List.getLast?_cons], rfl⟩
  | some c =>
    cases hb : isBlank c with
    | true => exact .inr ⟨c, hb, rfl⟩
    | false => exact .inl ⟨⟨c, rfl, hb⟩, c, rfl, hb⟩

theorem solid_markup (inner : String) : Solid ("<" ++ inner ++ ">").toList := by
  refine ⟨⟨'<', ?_, rfl⟩, '>', ?_, rfl⟩ <;> simp [List.getLast?_cons]

theorem solid_empty (name : String) (attributes : Attributes) :
    Solid ("<" ++ name ++ inlineAttributes attributes ++ "/>").toList := by
  have h := solid_markup (name ++ inlineAttributes attributes ++ "/")
  simpa using h

theorem solid_element (name : String) (attributes : Attributes) (text : String) :
    Solid ("<" ++ name ++ inlineAttributes attributes ++ ">" ++ text ++ "</" ++ name ++ ">").toList := by
  have h := solid_markup (name ++ inlineAttributes attributes ++ ">" ++ text ++ "</" ++ name)
  simpa using h

namespace Content
variable {P : Attributes → Prop} {content : Content}

/-- What is left behind the blanks that inline markup begins with. -/
theorem Inline.exists_dropWhile (h : content.Inline P) : ∃ content' : Content, content'.Inline P ∧
    content'.ownText.toList = content.ownText.toList.dropWhile isBlank := by
  induction content with
  | nil => exact ⟨nil, trivial, rfl⟩
  | text s rest ih =>
    rw [ownText, String.toList_append, List.dropWhile_append]
    split
    · exact ih h.2
    · refine ⟨text (.ofList (s.toList.dropWhile isBlank)) rest, ⟨fun c hc => ?_, h.2⟩, ?_⟩
      · rw [String.toList_ofList] at hc
        exact h.1 c ((List.dropWhile_suffix _).subset hc)
      · rw [ownText, String.toList_append, String.toList_ofList]
  | reference name rest ih =>
    rw [ownText, String.toList_append, String.toList_ofList]
    rcases solid_or_blank name.toList with hs | ⟨c, hb, he⟩
    · refine ⟨reference name rest, h, ?_⟩
      rw [hs.dropWhile, ownText, String.toList_append, String.toList_ofList]
    · rw [he, List.singleton_append, List.dropWhile_cons, if_pos hb]
      exact ih h.2
  | empty name attributes rest _ =>
    refine ⟨empty name attributes rest, h, ?_⟩
    rw [ownText, if_pos (by rw [h.1.2.1]; rfl), String.toList_append, (solid_empty _ _).dropWhile]
  | element name attributes inner rest _ _ =>
    refine ⟨element name attributes inner rest, h, ?_⟩
    rw [ownText, if_pos (by rw [h.1.2.1]; rfl), String.toList_append, (solid_element _ _ _).dropWhile]

/-- What is left in front of the blanks that inline markup ends with. -/
theorem Inline.exists_rdropWhile (h : content.Inline P) : ∃ content' : Content, content'.Inline P ∧
    content'.ownText.toList = content.ownText.toList.rdropWhile isBlank := by
  induction content with
  | nil => exact ⟨nil, trivial, rfl⟩
  | text s rest ih =>
    obtain ⟨rest', hi, he⟩ := ih h.2
    rw [ownText, String.toList_append, rdropWhile_append, ← he]
    split
    · refine ⟨text (.ofList (s.toList.rdropWhile isBlank)) nil, ⟨fun c hc => ?_, trivial⟩, ?_⟩
      · rw [String.toList_ofList] at hc
        exact h.1 c ((List.rdropWhile_prefix _ _).subset hc)
      · simp [ownText]
    · refine ⟨text s rest', ⟨h.1, hi⟩, ?_⟩
      rw [ownText, String.toList_append]
  | reference name rest ih =>
    obtain ⟨rest', hi, he⟩ := ih h.2
    have kept : (reference name rest').ownText.toList = expansion name.toList ++ rest'.ownText.toList := by
      rw [ownText, String.toList_append, String.toList_ofList]
    rw [ownText, String.toList_append, String.toList_ofList]
    rcases solid_or_blank name.toList with hs | ⟨c, hb, hc⟩
    · exact ⟨reference name rest', ⟨h.1, hi⟩, by rw [hs.rdropWhile, kept, he]⟩
    · rw [rdropWhile_append, ← he]
      split
      · exact ⟨nil, trivial, by rw [hc, List.rdropWhile_singleton, if_pos hb]; rfl⟩
      · exact ⟨reference name rest', ⟨h.1, hi⟩, kept⟩
  | empty name attributes rest ih =>
    obtain ⟨rest', hi, he⟩ := ih h.2
    have kept (rest : Content) : (empty name attributes rest).ownText.toList =
        ("<" ++ name ++ inlineAttributes attributes ++ "/>").toList ++ rest.ownText.toList := by
      rw [ownText, if_pos (by rw [h.1.2.1]; rfl), String.toList_append]
    exact ⟨empty name attributes rest', ⟨h.1, hi⟩,
      by rw [kept, kept, (solid_empty _ _).rdropWhile, he]⟩
  | element name attributes inner rest _ ih =>
    obtain ⟨rest', hi, he⟩ := ih h.2.2
    have kept (rest : Content) : (element name attributes inner rest).ownText.toList =
        ("<" ++ name ++ inlineAttributes attributes ++ ">" ++ inner.ownText ++ "</" ++ name ++ ">").toList ++
          rest.ownText.toList := by
      rw [ownText, if_pos (by rw [h.1.2.1]; rfl), String.toList_append]
    exact ⟨element name attributes inner rest', ⟨h.1, h.2.1, hi⟩,
      by rw [kept, kept, (solid_element _ _ _).rdropWhile, he]⟩

/-- Inline markup without the blanks around it is inline markup. -/
theorem Inline.exists_trim (h : content.Inline P) :
    ∃ content' : Content, content'.Inline P ∧ content'.ownText = trim content.ownText := by
  obtain ⟨content₁, h₁, he₁⟩ := h.exists_dropWhile
  obtain ⟨content₂, h₂, he₂⟩ := h₁.exists_rdropWhile
  refine ⟨content₂, h₂, ?_⟩
  rw [he₁] at he₂
  rw [trim, trimmed, ← List.rdropWhile, ← he₂, String.ofList_toList]

end Content

end QuizPress.Quiz
