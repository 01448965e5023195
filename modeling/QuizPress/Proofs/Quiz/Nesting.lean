import QuizPress.Proofs.Quiz.Shape
import QuizPress.Proofs.Xml.Legible

/-! The elements that are open while a quiz is read, and what the builder holds of each of them. -/
namespace QuizPress.Quiz
open Text Xml Builder

inductive Tag where
  | opening (name : String)
  | closing (name : String)
deriving DecidableEq, Repr

/-- The tags that an event stands for: an empty-element tag opens and closes. -/
def tagsOf : Event → List Tag
  | .start name _ => [.opening name]
  | .empty name _ => [.opening name, .closing name]
  | .close name => [.closing name]
  | .text _ | .reference _ => []

def openNames (names : List String) : List Tag → List String
  | [] => names
  | .opening name :: tags => openNames (name :: names) tags
  | .closing _ :: tags => openNames names.tail tags

/-- Every end tag names the element that was opened last. -/
def Matched (names : List String) : List Tag → Prop
  | [] => True
  | .opening name :: tags => Matched (name :: names) tags
  | .closing name :: tags => names.head? = some name ∧ Matched names.tail tags

theorem openNames_append (names : List String) (tags rest : List Tag) :
    openNames names (tags ++ rest) = openNames (openNames names tags) rest := by
  induction tags generalizing names with
  | nil => rfl
  | cons tag tags ih =>
    cases tag with
    | opening name => exact ih (name :: names)
    | closing name => exact ih names.tail

theorem matched_append {names : List String} {tags rest : List Tag} :
    Matched names (tags ++ rest) ↔ Matched names tags ∧ Matched (openNames names tags) rest := by
  induction tags generalizing names with
  | nil => exact ⟨fun h => ⟨trivial, h⟩, fun h => h.2⟩
  | cons tag tags ih =>
    cases tag with
    | opening name => exact ih
    | closing name =>
      simp only [List.cons_append, Matched, openNames, ih, and_assoc]

private def MatchedIn (opened : List (List Glyph)) (reading : Reading) : Prop :=
  Matched (opened.map lossy) (reading.events.flatMap tagsOf)

/-- The end tags that are read from a document match, be it a text or not. -/
theorem matched_of_read (gs : List Glyph) : Matched [] ((Xml.read gs).events.flatMap tagsOf) := by
  refine read_keeps (P := MatchedIn) (Q := fun _ => True) (fun _ _ => trivial) trivial fun size gs hp =>
    readFrom_keeps (Q := fun _ => True) (fun _ _ => trivial) ?_ ?_ ?_ ?_ ?_ size [] hp
  · exact fun _ _ => trivial
  · exact fun _ _ _ hr => hr
  · exact fun _ _ _ hr => hr
  · intro opened opened' content event reading _ ho hr
    rcases readOpening_cases ho with ⟨attributes, _, rfl, rfl, _⟩ | ⟨attributes, rfl, rfl, _⟩
    · exact ⟨rfl, hr⟩
    · exact hr
  · intro opened opened' content event reading hc hr
    obtain ⟨name, rfl, rfl⟩ := readClosing_cases hc
    exact ⟨rfl, hr⟩

def Element.isPart : Element → Bool
  | discussion | question | choice | answer | item => true
  | _ => false

def part? (name : String) : Option Element := (Element.ofName? name).filter Element.isPart

def parts (names : List String) : List Element := names.filterMap part?

def unknown? (name : String) : Option String :=
  if (Element.ofName? name).isNone then some name else none

/-- A builder agrees with the names of the open elements: there is one scope for each of them, its
inline tag is that of an element without meaning, the open parts are the parts among the elements,
and they have one of the shapes. No part is open where there is no quiz. -/
structure Sound (names : List String) (b : Builder) : Prop where
  scopes : b.scopes.map (fun scope => scope.inlineTag.map InlineTag.name) = names.map unknown?
  nodes : b.nodes.map Open.element = parts names
  shape : Shape b.nodes
  root : b.nodes ≠ [] → b.quiz.isSome = true

theorem sound_start : Sound [] {} := ⟨rfl, rfl, .nil, fun h => absurd rfl h⟩

variable {names : List String} {name : String} {b b' : Builder} {element : Element}
  {attributes : Attributes} {text : String}

theorem part_of_unknown (h : Element.ofName? name = none) : part? name = none := by
  rw [part?, h]
  rfl

theorem part_of_known (h : Element.ofName? name = some element) :
    part? name = if element.isPart then some element else none := by
  rw [part?, h, Option.filter_some]

theorem not_isPart_of_textual (h : element ∈ Element.textual) : element.isPart = false := by
  revert element
  decide

theorem not_isPart_of_marginal (h : element ∈ Element.marginal) : element.isPart = false := by
  revert element
  decide

theorem characters_scopes (b : Builder) (text : String) :
    (b.characters text).scopes.map Scope.inlineTag = b.scopes.map Scope.inlineTag := by
  unfold characters
  split <;> simp_all

theorem sound_characters (h : Sound names b) (text : String) : Sound names (b.characters text) := by
  refine ⟨?_, ?_, ?_, ?_⟩
  · have hs := congrArg (List.map (Option.map InlineTag.name)) (characters_scopes b text)
    rw [List.map_map, List.map_map] at hs
    exact hs.trans h.scopes
  · rw [characters_nodes]
    exact h.nodes
  · rw [characters_nodes]
    exact h.shape
  · rw [characters_nodes, characters_quiz]
    exact h.root

theorem opens_scopes (ho : Opens b attributes element b') : b'.scopes = b.scopes := by
  cases ho <;> rfl

theorem opens_nodes (ho : Opens b attributes element b') :
    b'.nodes.map Open.element = (if element.isPart then [element] else []) ++ b.nodes.map Open.element := by
  cases ho with
  | note hf =>
    cases element with
    | metaData | link | course | quizListItem => rfl
    | _ => cases hf
  | text he =>
    rw [not_isPart_of_textual he]
    rfl
  | _ => rfl

theorem opens_root (ho : Opens b attributes element b') (h : b.nodes ≠ [] → b.quiz.isSome = true) :
    b'.nodes ≠ [] → b'.quiz.isSome = true := by
  intro hn
  cases ho with
  | quiz => rfl
  | note =>
    rw [mapQuiz, Option.isSome_map]
    exact h hn
  | discussion hq | question hq => exact hq
  | choice hb | answer hb => exact h (by simp [hb])
  | item hb => exact h (by simp [hb])
  | text => exact h hn

theorem closes_scopes (hc : Closes b text element b') : b'.scopes = b.scopes := by
  cases hc <;> rfl

theorem element_takeText (element : Element) (text : String) (node : Open) :
    (takeText element text node).element = node.element := by
  cases node <;> rfl

theorem closes_nodes (hc : Closes b text element b') :
    b'.nodes.map Open.element =
      if element.isPart then (b.nodes.map Open.element).tail else b.nodes.map Open.element := by
  cases hc with
  | margin he =>
    rw [not_isPart_of_marginal he]
    rfl
  | discussion hn | question hn => simp [hn, Element.isPart]
  | choice he hn | answer he hn => rcases he with rfl | rfl <;> simp [hn, Element.isPart, Open.element]
  | item hn => simp [hn, Element.isPart, Open.element]
  | text he hn | idle he hn => simp [hn, not_isPart_of_textual he, element_takeText]

theorem closes_root (hc : Closes b text element b') (h : b.nodes ≠ [] → b.quiz.isSome = true) :
    b'.nodes ≠ [] → b'.quiz.isSome = true := by
  intro hn
  cases hc with
  | margin | idle => exact h hn
  | discussion | question => rfl
  | choice he hb | answer he hb => exact h (by simp [hb])
  | item hb => exact h (by simp [hb])
  | text he hb => exact h (by simp [hb])

theorem sound_of_start (h : Sound names b) (hs : b.start name attributes = .ok b') :
    Sound (name :: names) b' := by
  unfold Builder.start at hs
  split at hs
  · rename_i hu
    cases hs
    refine ⟨?_, ?_, h.shape, h.root⟩
    · rw [List.map_cons, List.map_cons, h.scopes, unknown?, hu]
      rfl
    · rw [parts, List.filterMap_cons, part_of_unknown hu]
      exact h.nodes
  · rename_i element hk
    have ho := openElement_iff.1 hs
    refine ⟨?_, ?_, shape_of_opens ho h.shape, opens_root ho h.root⟩
    · rw [opens_scopes ho, List.map_cons, List.map_cons, h.scopes, unknown?, hk]
      rfl
    · rw [opens_nodes ho, h.nodes, parts, parts, List.filterMap_cons, part_of_known hk]
      cases element.isPart with
      | false | true => rfl

theorem sound_of_close (h : Sound (name :: names) b) (hs : b.close name = .ok b') : Sound names b' := by
  obtain ⟨scope, outer, hb⟩ : ∃ scope outer, b.scopes = scope :: outer := by
    cases hb : b.scopes with
    | nil =>
      have he := h.scopes
      rw [hb] at he
      cases he
    | cons scope outer => exact ⟨scope, outer, rfl⟩
  have hscopes := h.scopes
  rw [hb, List.map_cons, List.map_cons] at hscopes
  have hnodes := h.nodes
  rw [parts, List.filterMap_cons] at hnodes
  simp only [close, hb, List.headD_cons, List.tail_cons] at hs
  split at hs
  · rename_i hu
    rw [part_of_unknown hu] at hnodes
    have hs' : Sound names { b with scopes := outer } :=
      ⟨(List.cons.inj hscopes).2, hnodes, h.shape, h.root⟩
    split at hs
    · cases hs
      exact sound_characters hs' _
    · cases hs
      exact hs'
  · rename_i element hk
    have hc := closeElement_iff.1 hs
    refine ⟨?_, ?_, shape_of_closes hc h.shape, closes_root hc h.root⟩
    · rw [closes_scopes hc]
      exact (List.cons.inj hscopes).2
    · rw [closes_nodes hc]
      rw [part_of_known hk] at hnodes
      cases hp : element.isPart with
      | false =>
        rw [hp] at hnodes
        exact hnodes
      | true =>
        rw [hp] at hnodes
        exact congrArg List.tail hnodes

/-- An end tag that matches fails only where a question has no answer body. -/
theorem error_of_close {error : ParseError} (h : Sound (name :: names) b)
    (he : b.close name = .error error) :
    Element.ofName? name = some .question ∧ error = .missingAnswerBody b.questionNumber := by
  obtain ⟨quiz, nodes, scopes⟩ := b
  obtain ⟨_, hn, hs, hr⟩ := h
  simp only [close] at he
  split at he
  · split at he <;> cases he
  · rename_i element hk
    rw [parts, List.filterMap_cons, part_of_known hk] at hn
    -- the shape says which part is on top, and that it can be given to what is below it
    cases element with
    | quiz | metaData | link | course | quizListItem => cases he
    | text | tag | response | whenRight | whenWrong =>
      simp only [closeElement] at he
      split at he <;> cases he
    | discussion =>
      cases hs with
      | discussion d =>
        obtain ⟨q, rfl⟩ := Option.isSome_iff_exists.1 (hr (by simp))
        cases he
      | _ => cases hn
    | question =>
      cases hs with
      | question own body =>
        obtain ⟨q, rfl⟩ := Option.isSome_iff_exists.1 (hr (by simp))
        cases body with
        | none =>
          cases he
          exact ⟨hk, rfl⟩
        | some body => cases he
      | _ => cases hn
    | choice =>
      cases hs with
      | choice => cases he
      | _ => cases hn
    | answer =>
      cases hs with
      | answer => cases he
      | _ => cases hn
    | item =>
      cases hs with
      | item => cases he
      | _ => cases hn

/-- An event whose end tags match keeps a builder sound. -/
theorem sound_of_step {event : Event} (h : Sound names b) (hm : Matched names (tagsOf event))
    (hs : b.step event = .ok b') : Sound (openNames names (tagsOf event)) b' := by
  cases event with
  | start name attributes => exact sound_of_start h hs
  | close name =>
    obtain ⟨hh, _⟩ := hm
    cases names with
    | nil => cases hh
    | cons top names =>
      cases hh
      exact sound_of_close h hs
  | empty name attributes =>
    rcases empty_cases hs with ⟨_, text, rfl⟩ | ⟨b₁, ho, hc⟩
    · exact sound_characters h text
    · exact sound_of_close (sound_of_start h ho) hc
  | text content | reference name =>
    cases hs
    exact sound_characters h _

theorem sound_of_run {events : List Event} (h : Sound names b) (hm : Matched names (events.flatMap tagsOf))
    (hr : b.run events = .ok b') : Sound (openNames names (events.flatMap tagsOf)) b' := by
  induction events generalizing names b with
  | nil =>
    cases hr
    exact h
  | cons event events ih =>
    rw [List.flatMap_cons, matched_append] at hm
    rw [List.flatMap_cons, openNames_append]
    obtain ⟨b₁, hs, hr'⟩ := run_cons_eq_ok.1 hr
    exact ih (sound_of_step h hm.1 hs) hm.2 hr'

/-- After any events whose end tags match, the builder agrees with the open elements, and the next
end tag that matches fails only where a question has no answer body. -/
theorem run_sound {events : List Event} {b : Builder} (hm : Matched [] (events.flatMap tagsOf))
    (hr : Builder.run {} events = .ok b) :
    Sound (openNames [] (events.flatMap tagsOf)) b ∧
    ∀ name error, (openNames [] (events.flatMap tagsOf)).head? = some name →
      b.close name = .error error →
      Element.ofName? name = some .question ∧ error = .missingAnswerBody b.questionNumber := by
  have h := sound_of_run sound_start hm hr
  refine ⟨h, fun name error hh he => ?_⟩
  cases hn : openNames [] (events.flatMap tagsOf) with
  | nil =>
    rw [hn] at hh
    cases hh
  | cons top names =>
    rw [hn] at hh h
    cases hh
    exact error_of_close h he

/-- A question with markup in it, of which the answer body is still to come. -/
theorem run_sound_bare_question :
    let events : List Event := [.start "quiz" [], .start "question" [], .start "b" [], .close "b"]
    let b : Builder := ⟨some {}, [.question "" none], [⟨none, "<b></b>"⟩, ⟨none, ""⟩]⟩
    Matched [] (events.flatMap tagsOf) ∧ Builder.run {} events = .ok b ∧
      Sound ["question", "quiz"] b ∧ b.close "question" = .error (.missingAnswerBody 1) ∧
      Element.ofName? "question" = some .question := by
  intro events b
  have hm : Matched [] (events.flatMap tagsOf) := ⟨rfl, trivial⟩
  have hr : Builder.run {} events = .ok b := rfl
  have hc : b.close "question" = .error (.missingAnswerBody 1) := rfl
  exact ⟨hm, hr, (run_sound hm hr).1, hc, ((run_sound hm hr).2 "question" _ rfl hc).1⟩

end QuizPress.Quiz
