import QuizPress.Proofs.Xml.Reader
import QuizPress.Quiz.Builder

/-! What the tags of known elements do to a builder, as rules. -/
namespace QuizPress.Quiz
open Xml

namespace Element

def textual : List Element := [text, tag, response, whenRight, whenWrong]

/-- The elements that are no parts and hold no text. -/
def marginal : List Element := [quiz, metaData, link, course, quizListItem]

end Element

namespace Builder

def noted? (element : Element) (attributes : Attributes) : Option (Quiz → Quiz) :=
  match element with
  | .metaData => some fun q => { q with metas := q.metas ++ [attributes] }
  | .link => some fun q => { q with links := q.links ++ [attributes] }
  | .course => some fun q => { q with course := {
      name := attributes.valueD "name" ""
      code := attributes.valueD "code" ""
      url := attributes.valueD "url" "" } }
  | .quizListItem => some fun q => { q with index := q.index ++ [{
      title := attributes.valueD "title" ""
      url := attributes.valueD "url" "" }] }
  | _ => none

def titled (attributes : Attributes) : Quiz :=
  { title := attributes.valueD "title" ""
    breadcrumb := breadcrumb attributes
    source := attributes.valueD "src" "" }

def choiceOf (attributes : Attributes) : Choice :=
  { mode := .ofName (attributes.valueD "type" "single")
    columns := columns (attributes.value? "cols") }

/-- The start tags that a builder takes, each with the builder after it. -/
inductive Opens (b : Builder) (attributes : Attributes) : Element → Builder → Prop where
  | quiz (h : b.quiz = none) : Opens b attributes .quiz { b with quiz := some (titled attributes) }
  | note {element f} (h : noted? element attributes = some f) : Opens b attributes element (b.mapQuiz f)
  | discussion (hq : b.quiz.isSome = true) (hn : b.nodes = []) :
      Opens b attributes .discussion
        (b.pushNode (.discussion { heading := attributes.valueD "heading" "Discussion" }))
  | question (hq : b.quiz.isSome = true) (hn : b.nodes = []) :
      Opens b attributes .question (b.pushNode (.question "" none))
  | choice {text outer} (hn : b.nodes = .question text none :: outer) :
      Opens b attributes .choice (b.pushNode (.choice (choiceOf attributes)))
  | answer {text outer} (hn : b.nodes = .question text none :: outer) :
      Opens b attributes .answer (b.pushNode (.answer { value := attributes.valueD "value" "" }))
  | item {c outer} (hn : b.nodes = .choice c :: outer) (hl : c.items.length < Choice.maxItems) :
      Opens b attributes .item (b.pushNode (.item { expect := attributes.value? "expect" == some "true" }))
  | text {element} (he : element ∈ Element.textual) : Opens b attributes element b

/-- The end tags that a builder takes, each with the builder after it. -/
inductive Closes (b : Builder) (text : String) : Element → Builder → Prop where
  | margin {element} (he : element ∈ Element.marginal) : Closes b text element b
  | discussion {d outer q} (hn : b.nodes = .discussion d :: outer) (hq : b.quiz = some q) :
      Closes b text .discussion { b with
        quiz := some { q with
          discussions := q.discussions ++ [if d.body.isEmpty then { d with body := text } else d] }
        nodes := outer }
  | question {own body outer q} (hn : b.nodes = .question own (some body) :: outer)
      (hq : b.quiz = some q) :
      Closes b text .question { b with
        quiz := some { q with questions := q.questions ++ [⟨own, body⟩] }
        nodes := outer }
  | choice {element c own old outer} (he : element = .choice ∨ element = .answer)
      (hn : b.nodes = .choice c :: .question own old :: outer) :
      Closes b text element { b with nodes := .question own (some (.choice c)) :: outer }
  | answer {element a own old outer} (he : element = .choice ∨ element = .answer)
      (hn : b.nodes = .answer a :: .question own old :: outer) :
      Closes b text element { b with nodes := .question own (some (.answer a)) :: outer }
  | item {i c outer} (hn : b.nodes = .item i :: .choice c :: outer) :
      Closes b text .item { b with nodes := .choice { c with items := c.items ++ [i] } :: outer }
  | text {element node outer} (he : element ∈ Element.textual) (hn : b.nodes = node :: outer) :
      Closes b text element { b with nodes := takeText element text node :: outer }
  | idle {element} (he : element ∈ Element.textual) (hn : b.nodes = []) : Closes b text element b

variable {b b' : Builder} {element : Element} {attributes : Attributes} {text : String}

private theorem opens_of_openElement (h : b.openElement element attributes = .ok b') :
    Opens b attributes element b' := by
  cases element with
  | quiz =>
    simp only [openElement] at h
    split at h
    · cases h
    · rename_i hq
      cases h
      exact .quiz (by simpa using hq)
  | metaData | link | course | quizListItem =>
    cases h
    exact .note rfl
  | discussion =>
    simp only [openElement, openSection] at h
    split at h
    · cases h
    · rename_i hq
      split at h
      · rename_i hn
        cases h
        exact .discussion (by simpa [Option.isSome_iff_ne_none] using hq) hn
      · cases h
  | question =>
    simp only [openElement, openSection] at h
    split at h
    · cases h
    · rename_i hq
      split at h
      · rename_i hn
        cases h
        exact .question (by simpa [Option.isSome_iff_ne_none] using hq) hn
      · cases h
  | choice =>
    simp only [openElement, openBody] at h
    split at h
    · cases h
    · rename_i hn
      cases h
      exact .choice hn
    · cases h
  | answer =>
    simp only [openElement, openBody] at h
    split at h
    · cases h
    · rename_i hn
      cases h
      exact .answer hn
    · cases h
  | item =>
    simp only [openElement, openItem] at h
    split at h
    · rename_i hn
      split at h
      · cases h
      · rename_i hl
        cases h
        exact .item hn (Nat.lt_of_not_le hl)
    · cases h
  | text | tag | response | whenRight | whenWrong =>
    cases h
    exact .text (by decide)

/-- The rules say which start tags are taken. -/
theorem openElement_iff : b.openElement element attributes = .ok b' ↔ Opens b attributes element b' := by
  refine ⟨opens_of_openElement, fun h => ?_⟩
  cases h with
  | quiz h => simp [openElement, h, titled]
  | note h =>
    cases element with
    | metaData | link | course | quizListItem =>
      cases h
      rfl
    | _ => cases h
  | discussion hq hn | question hq hn =>
    have hq' : b.quiz.isNone = false := by
      rw [← Option.not_isSome, hq]
      rfl
    simp [openElement, openSection, hq', hn]
  | choice hn | answer hn =>
    simp only [openElement, openBody, hn, choiceOf]
  | item hn hl =>
    simp only [openElement, openItem, hn]
    rw [if_neg (Nat.not_le_of_lt hl)]
  | text he =>
    simp only [Element.textual, List.mem_cons, List.not_mem_nil, or_false] at he
    rcases he with rfl | rfl | rfl | rfl | rfl <;> rfl

private theorem closes_of_closeElement (h : b.closeElement element text = .ok b') :
    Closes b text element b' := by
  cases element with
  | quiz | metaData | link | course | quizListItem =>
    cases h
    exact .margin (by decide)
  | discussion =>
    simp only [closeElement, giveSection] at h
    split at h
    · rename_i hn
      split at h
      · rename_i hq
        cases h
        exact .discussion hn hq
      · cases h
    · cases h
  | question =>
    simp only [closeElement, giveSection] at h
    split at h
    · rename_i hn
      split at h
      · rename_i hq
        cases h
        exact .question hn hq
      · cases h
    · cases h
    · cases h
  | choice | answer =>
    simp only [closeElement, giveBody] at h
    split at h
    · rename_i hn
      split at h
      · cases h
        exact .choice (by decide) hn
      · cases h
    · rename_i hn
      split at h
      · cases h
        exact .answer (by decide) hn
      · cases h
    · cases h
  | item =>
    simp only [closeElement] at h
    split at h
    · rename_i hn
      cases h
      exact .item hn
    · cases h
    · cases h
  | text | tag | response | whenRight | whenWrong =>
    simp only [closeElement] at h
    split at h
    · rename_i hn
      cases h
      exact .text (by decide) hn
    · rename_i hn
      cases h
      exact .idle (by decide) hn

/-- The rules say which end tags are taken. -/
theorem closeElement_iff : b.closeElement element text = .ok b' ↔ Closes b text element b' := by
  refine ⟨closes_of_closeElement, fun h => ?_⟩
  cases h with
  | margin he =>
    simp only [Element.marginal, List.mem_cons, List.not_mem_nil, or_false] at he
    rcases he with rfl | rfl | rfl | rfl | rfl <;> rfl
  | discussion hn hq | question hn hq => simp only [closeElement, hn, giveSection, hq]
  | choice he hn | answer he hn => rcases he with rfl | rfl <;> simp only [closeElement, hn, giveBody]
  | item hn => simp only [closeElement, hn]
  | text he hn | idle he hn =>
    simp only [Element.textual, List.mem_cons, List.not_mem_nil, or_false] at he
    rcases he with rfl | rfl | rfl | rfl | rfl <;> simp only [closeElement, hn]

end Builder

end QuizPress.Quiz
