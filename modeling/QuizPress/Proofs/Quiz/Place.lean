import QuizPress.Proofs.Quiz.Cursor
import QuizPress.Proofs.Xml.Tag
import QuizPress.Render.Source

/-! Places in a document of known elements, and the texts that lead from one place to another. -/
namespace QuizPress.Quiz
open Text Xml

/-- What matters of a cursor where all open elements have a meaning: the quiz, the open parts, and
the names of the open elements. -/
structure Place where
  quiz : Option Quiz := none
  nodes : List Open := []
  names : List String := []

namespace Place

def builder (p : Place) : Builder := { quiz := p.quiz, nodes := p.nodes }

def At (p : Place) (c : Cursor) : Prop :=
  ∃ scopes : List Scope, scopes.map Scope.inlineTag = p.names.map (fun _ => none) ∧
    c = ⟨p.names.map glyphs, { p.builder with scopes }⟩

/-- A text leads from one place to another, whatever stands behind it. -/
def Takes (p : Place) (s : String) (q : Place) : Prop :=
  ∀ c, p.At c → ∃ d, q.At d ∧
    ∀ size rest, c.outcome size (glyphs s ++ rest) = d.outcome size rest

/-- A text decides what becomes of the document, whatever stands behind it. -/
def Decides (p : Place) (s : String) (P : Except ParseError Quiz → Prop) : Prop :=
  ∀ c, p.At c → ∀ size rest, P (c.outcome size (glyphs s ++ rest))

variable {p q r : Place} {s t : String} {P : Except ParseError Quiz → Prop}

theorem takes_empty (p : Place) : p.Takes "" p :=
  fun c hc => ⟨c, hc, fun _ _ => rfl⟩

theorem Takes.append (h : p.Takes s q) (h' : q.Takes t r) : p.Takes (s ++ t) r := by
  intro c hc
  obtain ⟨d, hd, he⟩ := h c hc
  obtain ⟨e, hr, he'⟩ := h' d hd
  refine ⟨e, hr, fun size rest => ?_⟩
  rw [glyphs_append, List.append_assoc, he, he']

theorem Takes.decides (h : p.Takes s q) (h' : q.Decides t P) : p.Decides (s ++ t) P := by
  intro c hc size rest
  obtain ⟨d, hd, he⟩ := h c hc
  rw [glyphs_append, List.append_assoc, he]
  exact h' d hd size rest

theorem Decides.append (h : p.Decides s P) (t : String) : p.Decides (s ++ t) P := by
  intro c hc size rest
  rw [glyphs_append, List.append_assoc]
  exact h c hc size _

/-- Texts written one after the other lead from place to place. -/
theorem takes_join {α : Type} (write : α → String) (place : List α → Place) (xs : List α)
    (h : ∀ before x after, xs = before ++ x :: after →
      (place before).Takes (write x) (place (before ++ [x]))) :
    (place []).Takes (String.join (xs.map write)) (place xs) := by
  suffices hs : ∀ after before, xs = before ++ after →
      (place before).Takes (String.join (after.map write)) (place xs) from hs xs [] rfl
  intro after
  induction after with
  | nil =>
    intro before hb
    rw [List.append_nil] at hb
    subst hb
    exact takes_empty _
  | cons x after ih =>
    intro before hb
    rw [List.map_cons, String.join_cons]
    exact (h before x after hb).append (ih (before ++ [x]) (by simp [hb]))

theorem At.told {c : Cursor} (h : p.At c) (s : String) : p.At (c.told s) := by
  obtain ⟨scopes, hs, rfl⟩ := h
  cases scopes with
  | nil => exact ⟨[], hs, rfl⟩
  | cons scope outer => exact ⟨{ scope with text := scope.text ++ s } :: outer, hs, rfl⟩

theorem takes_text (p : Place) (h : ∀ c ∈ s.toList, isText (.char c) = true) : p.Takes s p :=
  fun c hc => ⟨c.told s, hc.told s, fun size rest => c.outcome_text size h rest⟩

end Place

def startTag (name : String) (attributes : Attributes) : String :=
  "<" ++ name ++ Render.Source.attributes attributes ++ ">"

def emptyTag (name : String) (attributes : Attributes) : String :=
  "<" ++ name ++ Render.Source.attributes attributes ++ "/>"

def endTag (name : String) : String := "</" ++ name ++ ">"

private theorem quote_not_mem_markedChar (c : Char) : '"' ∉ markedChar c :=
  fun h => (mem_markedChar h).2.2.1 rfl

namespace Cursor
variable {name : String} {attributes : Attributes}

theorem outcome_startTag (c : Cursor) (size : Nat) (hn : isName name = true)
    (hw : Writable attributes) (rest : List Glyph) :
    c.outcome size (glyphs (startTag name attributes) ++ rest) =
      c.builder.start name attributes >>= fun b => outcome ⟨glyphs name :: c.opened, b⟩ size rest := by
  have hread := readFrom_opening quote_not_mem_markedChar faithful_markedChar hn hw.toLegible
    (quoteThrough_balanced hn hw.balanced) size c.opened rest
  rw [outcome, startTag, Render.Source.attributes, hread]
  exact Builder.resume_cons _ _ _

theorem outcome_emptyTag (c : Cursor) (size : Nat) (hn : isName name = true)
    (hw : Writable attributes) (rest : List Glyph) :
    c.outcome size (glyphs (emptyTag name attributes) ++ rest) =
      c.builder.empty name attributes >>= fun b => outcome ⟨c.opened, b⟩ size rest := by
  have hread := readFrom_lone quote_not_mem_markedChar faithful_markedChar hn hw.toLegible
    (quoteThrough_balanced hn hw.balanced) size c.opened rest
  rw [outcome, emptyTag, Render.Source.attributes, hread]
  exact Builder.resume_cons _ _ _

theorem outcome_endTag {c : Cursor} {opened : List (List Glyph)} (size : Nat) (hn : isName name = true)
    (hc : c.opened = glyphs name :: opened) (rest : List Glyph) :
    c.outcome size (glyphs (endTag name) ++ rest) =
      c.builder.close name >>= fun b => outcome ⟨opened, b⟩ size rest := by
  rw [outcome, endTag, hc, readFrom_ending hn]
  exact Builder.resume_cons _ _ _

end Cursor

theorem Element.ofName?_name (element : Element) : Element.ofName? element.name = some element := by
  cases element <;> decide

theorem Element.isName_name (element : Element) : isName element.name = true := by
  cases element <;> decide

namespace Place
variable {p q r : Place} {text : String} {attributes : Attributes}

theorem takes_startTag (element : Element) (hw : Writable attributes)
    (ho : p.builder.openElement element attributes = .ok q.builder)
    (hq : q.names = element.name :: p.names) : p.Takes (startTag element.name attributes) q := by
  rintro c ⟨scopes, hs, rfl⟩
  refine ⟨⟨q.names.map glyphs, { q.builder with scopes := {} :: scopes }⟩,
    ⟨_, by simp [hq, hs], rfl⟩, fun size rest => ?_⟩
  rw [Cursor.outcome_startTag _ size element.isName_name hw, Builder.start, element.ofName?_name, hq]
  simp only [Builder.openElement_scopes, ho, Except.map, ok_bind, List.map_cons]

/-- An error of the start tag is the error of the document. -/
theorem refuses_startTag {error : ParseError} (element : Element) (hw : Writable attributes)
    (ho : p.builder.openElement element attributes = .error error) :
    p.Decides (startTag element.name attributes) (· = .error error) := by
  rintro c ⟨scopes, hs, rfl⟩ size rest
  rw [Cursor.outcome_startTag _ size element.isName_name hw, Builder.start, element.ofName?_name]
  simp only [Builder.openElement_scopes, ho, Except.map, error_bind]

theorem takes_emptyTag (element : Element) (hw : Writable attributes)
    (ho : p.builder.openElement element attributes = .ok q.builder)
    (hc : q.builder.closeElement element "" = .ok r.builder) (hr : r.names = p.names) :
    p.Takes (emptyTag element.name attributes) r := by
  rintro c ⟨scopes, hs, rfl⟩
  refine ⟨⟨r.names.map glyphs, { r.builder with scopes }⟩, ⟨_, by rw [hr, hs], rfl⟩, fun size rest => ?_⟩
  have ho' : ({ p.builder with scopes } : Builder).start element.name attributes =
      .ok { q.builder with scopes := {} :: scopes } := by
    rw [Builder.start, element.ofName?_name]
    simp only [Builder.openElement_scopes, ho, Except.map]
  have hc' : ({ q.builder with scopes := {} :: scopes } : Builder).close element.name =
      .ok { r.builder with scopes } := by
    rw [Builder.close, element.ofName?_name]
    simp only [Builder.closeElement_scopes, List.headD_cons, trim_empty, hc, Except.map]
    rfl
  rw [Cursor.outcome_emptyTag _ size element.isName_name hw, Builder.empty, element.ofName?_name, hr]
  simp only [ho', ok_bind, hc']

/-- The end tag of an element that takes no text. -/
theorem takes_endTag (element : Element) (hp : p.names = element.name :: q.names)
    (hc : ∀ text, p.builder.closeElement element text = .ok q.builder) :
    p.Takes (endTag element.name) q := by
  rintro c ⟨scopes, hs, rfl⟩
  cases scopes with
  | nil => simp [hp] at hs
  | cons scope outer =>
    rw [hp, List.map_cons, List.map_cons] at hs
    refine ⟨⟨q.names.map glyphs, { q.builder with scopes := outer }⟩,
      ⟨_, (List.cons.inj hs).2, rfl⟩, fun size rest => ?_⟩
    rw [Cursor.outcome_endTag size element.isName_name (by rw [hp]; rfl), Builder.close,
      element.ofName?_name]
    simp only [Builder.closeElement_scopes, hc, Except.map, List.tail_cons, ok_bind]

/-- An element that holds nothing but a text. -/
theorem takes_field (element : Element) (hw : Writable attributes)
    (ho : p.builder.openElement element attributes = .ok q.builder)
    (hc : q.builder.closeElement element (trim text) = .ok r.builder) (hr : r.names = p.names) :
    p.Takes (startTag element.name attributes ++ cdata text ++ endTag element.name) r := by
  rintro c ⟨scopes, hs, rfl⟩
  refine ⟨⟨r.names.map glyphs, { r.builder with scopes }⟩, ⟨_, by rw [hr, hs], rfl⟩, fun size rest => ?_⟩
  rw [glyphs_append, glyphs_append, List.append_assoc, List.append_assoc,
    Cursor.outcome_startTag _ size element.isName_name hw, Builder.start, element.ofName?_name]
  simp only [Builder.openElement_scopes, ho, Except.map, ok_bind]
  rw [Cursor.outcome_cdata, Cursor.outcome_endTag size element.isName_name rfl, hr]
  simp only [Cursor.told, Builder.characters, Builder.close, element.ofName?_name, List.headD_cons,
    List.tail_cons, String.empty_append, Builder.closeElement_scopes, hc, Except.map, ok_bind]

end Place

end QuizPress.Quiz
