import QuizPress.Proofs.Quiz.Characters

/-! Elements without meaning. A builder is told them as text, and the element around them gives this
text to the part that it stands in. -/
namespace QuizPress.Quiz
open Text Xml Builder

section
variable {events : List Event} {text name : String} {attributes : Attributes}

theorem told_empty (hu : Element.ofName? name = none) :
    Told [.empty name attributes] ("<" ++ name ++ inlineAttributes attributes ++ "/>") := fun b => by
  refine run_cons_eq_ok.2 ⟨_, ?_, rfl⟩
  rw [step, Builder.empty, hu]

/-- The end tag tells the scope around it what the element has been told. -/
theorem Told.element (attributes : Attributes) (hu : Element.ofName? name = none)
    (h : Told events text) :
    Told (.start name attributes :: (events ++ [.close name]))
      ("<" ++ name ++ inlineAttributes attributes ++ ">" ++ text ++ "</" ++ name ++ ">") := fun b => by
  let tag := "<" ++ name ++ inlineAttributes attributes ++ ">"
  let b₁ : Builder := { b with scopes := ⟨some ⟨name, tag⟩, ""⟩ :: b.scopes }
  have hs : b.start name attributes = .ok b₁ := by rw [Builder.start, hu]
  have hc : (b₁.characters text).close name = .ok (b.characters (tag ++ text ++ "</" ++ name ++ ">")) := by
    simp only [b₁, characters, close, hu, List.headD_cons, List.tail_cons, String.empty_append]
  exact run_cons_eq_ok.2 ⟨b₁, hs, run_append_eq_ok.2 ⟨_, h b₁, run_cons_eq_ok.2 ⟨_, hc, rfl⟩⟩⟩

end

def written : Event → String
  | .start name attributes => "<" ++ name ++ inlineAttributes attributes ++ ">"
  | .empty name attributes => "<" ++ name ++ inlineAttributes attributes ++ "/>"
  | .close name => "</" ++ name ++ ">"
  | .text content => content
  | .reference name => .ofList (expansion name.toList)

namespace Content

/-- No element has a meaning. -/
def Foreign : Content → Prop
  | nil => True
  | text _ rest | reference _ rest => rest.Foreign
  | empty name _ rest => Element.ofName? name = none ∧ rest.Foreign
  | element name _ inner rest => Element.ofName? name = none ∧ inner.Foreign ∧ rest.Foreign

variable {content : Content}

/-- Elements without meaning are told as text, whatever the builder. -/
theorem Foreign.told (h : content.Foreign) : Told content.events content.ownText := by
  induction content with
  | nil => exact told_nil
  | text s rest ih => exact (told_text s).append (ih h)
  | reference name rest ih => exact (told_reference name).append (ih h)
  | empty name attributes rest ih =>
    rw [events, ownText, if_pos (by rw [h.1]; rfl)]
    exact (told_empty h.1).append (ih h.2)
  | element name attributes inner rest ihi ihr =>
    have ht := ((ihi h.2.1).element attributes h.1).append (ihr h.2.2)
    rw [events, ownText, if_pos (by rw [h.1]; rfl)]
    rwa [List.cons_append, List.append_assoc] at ht

/-- The text of elements without meaning is that of all their events. -/
theorem Foreign.ownText_eq (h : content.Foreign) :
    content.ownText = String.join (content.events.map written) := by
  induction content with
  | nil => rfl
  | text s rest ih | reference name rest ih =>
    rw [events, ownText, List.map_cons, String.join_cons, ih h]
    rfl
  | empty name attributes rest ih =>
    rw [events, ownText, if_pos (by rw [h.1]; rfl), List.map_cons, String.join_cons, ih h.2]
    rfl
  | element name attributes inner rest ihi ihr =>
    rw [events, ownText, if_pos (by rw [h.1]; rfl), List.map_cons, String.join_cons, List.map_append,
      String.join_append, List.map_cons, String.join_cons, ihi h.2.1, ihr h.2.2]
    simp only [written, String.append_assoc]

/-- No more elements are open behind a content than in front of it. -/
theorem rise_events (content : Content) : rise content.events = 0 := by
  induction content with
  | nil => rfl
  | text _ rest ih | reference _ rest ih | empty _ _ rest ih => simpa [events, rise, Event.rise] using ih
  | element _ _ inner rest ihi ihr =>
    simp [events, rise, Event.rise, rise_append, ihi, ihr]

end Content

def field (tag s : String) : String := "<" ++ tag ++ ">" ++ s ++ ("</" ++ tag ++ ">")

/-- The beginning of a document that is read without a fault, and the builder behind it. -/
def Reaches (beginning : String) (b : Builder) : Prop :=
  ∃ events, Xml.read (glyphs beginning) = ⟨events, none⟩ ∧ Builder.run {} events = .ok b

/-- Between the tags of an element this tells the element a text, wherever the element is. -/
def Tells (tag s text : String) : Prop :=
  ∀ size opened more, ∃ inner, Told inner text ∧
    readFrom size opened (glyphs (field tag s) ++ more) =
      (readFrom size opened more).prepend (.start tag [] :: (inner ++ [.close tag]))

private theorem glyphs_field (tag s : String) :
    glyphs (field tag s) = .char '<' :: glyphs (tag ++ ">" ++ s ++ ("</" ++ tag ++ ">")) := by
  simp [field, glyphs]

section
variable {before tag s text : String} {content : Content} {kind : Element} {b b' : Builder} {node : Open}
  {outer : List Open}

/-- What is read as elements without meaning tells the text of these. -/
theorem Content.Foreign.tells (hf : content.Foreign)
    (h : Xml.read (glyphs (field tag s)) = ⟨.start tag [] :: (content.events ++ [.close tag]), none⟩) :
    Tells tag s content.ownText := by
  rw [glyphs_field, Xml.read] at h
  · rw [← glyphs_field] at h
    obtain ⟨opened, hrise, honward⟩ := readFrom_onward h
    have hopened : opened = [] := by
      simp only [rise, Event.rise, rise_append, content.rise_events, List.length_nil] at hrise
      exact List.eq_nil_of_length_eq_zero (by omega)
    subst hopened
    exact fun size opened more =>
      ⟨content.events, hf.told, honward size opened more (.inl (by simp [List.getLast?_cons]))⟩
  · intro gs he
    cases he

/-- The innermost open part is given the text that the element is told, without the blanks around it. -/
theorem run_field {inner : List Event} (hi : Told inner text) (hk : Element.ofName? tag = some kind)
    (ht : kind ∈ Element.textual) (hn : b.nodes = node :: outer) :
    b.run (.start tag [] :: (inner ++ [.close tag])) =
      .ok { b with nodes := takeText kind (trim text) node :: outer } := by
  obtain ⟨quiz, nodes, scopes⟩ := b
  cases hn
  have hs : (⟨quiz, node :: outer, scopes⟩ : Builder).start tag [] =
      .ok ⟨quiz, node :: outer, {} :: scopes⟩ := by
    rw [Builder.start, hk]
    exact openElement_iff.2 (.text ht)
  have hc : ((⟨quiz, node :: outer, {} :: scopes⟩ : Builder).characters text).close tag =
      .ok ⟨quiz, takeText kind (trim text) node :: outer, scopes⟩ := by
    simp only [close, characters, hk, List.headD_cons, List.tail_cons, String.empty_append]
    exact closeElement_iff.2 (.text ht rfl)
  exact run_cons_eq_ok.2 ⟨_, hs, run_append_eq_ok.2 ⟨_, hi _, run_cons_eq_ok.2 ⟨_, hc, rfl⟩⟩⟩

/-- A document goes on behind an element as it does behind any other one that tells the same. -/
theorem Reaches.behind_field (h : Reaches before b) (hk : Element.ofName? tag = some kind)
    (ht : kind ∈ Element.textual) (hn : b.nodes = node :: outer) :
    ∃ opened, ∀ s text, Tells tag s text → ∀ after, ∃ size events,
      Xml.read (glyphs (before ++ field tag s ++ after)) =
        (readFrom size opened (glyphs after)).prepend events ∧
      Builder.run {} events = .ok { b with nodes := takeText kind (trim text) node :: outer } := by
  obtain ⟨events, hread, hrun⟩ := h
  obtain ⟨opened, honward⟩ := read_onward hread
  refine ⟨opened, fun s text hs after => ?_⟩
  obtain ⟨size, hmore⟩ := honward (glyphs (field tag s) ++ glyphs after) <| .inr fun g hg => by
    rw [glyphs_field] at hg
    cases hg
    rfl
  obtain ⟨inner, hi, htext⟩ := hs size opened (glyphs after)
  refine ⟨size, events ++ .start tag [] :: (inner ++ [.close tag]), ?_,
    run_append_eq_ok.2 ⟨b, hrun, run_field hi hk ht hn⟩⟩
  rw [glyphs_append, glyphs_append, List.append_assoc, hmore, htext, Reading.prepend_prepend]

/-- An element without elements that have a meaning gives its text to the innermost open part. -/
theorem Reaches.field (h : Reaches before b) (hk : Element.ofName? tag = some kind)
    (ht : kind ∈ Element.textual) (hn : b.nodes = node :: outer) (hs : Tells tag s text) :
    Reaches (before ++ Quiz.field tag s) { b with nodes := takeText kind (trim text) node :: outer } := by
  obtain ⟨opened, hbehind⟩ := h.behind_field hk ht hn
  obtain ⟨size, events, hread, hrun⟩ := hbehind s text hs ""
  refine ⟨events, ?_, hrun⟩
  have hnil : glyphs "" = [] := rfl
  rwa [String.append_empty, hnil, readFrom, Reading.prepend, List.append_nil] at hread

end

end QuizPress.Quiz
