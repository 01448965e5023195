import QuizPress.Proofs.Quiz.Visits
import QuizPress.Render.Basic

/-! What is drawn on the way through a quiz: a block for each discussion and for each question, whatever is
on the canvas before. -/
namespace QuizPress.Render.Page
open Quiz Methods

/-- The table of a choice, behind which a hidden field goes with a single choice. -/
def choiceTable (number : Nat) (choice : Choice) : String :=
  element "table" [("class", "question_choices")] ("\n" ++
    String.join ((choice.items.zipIdx 1).map fun (item, index) =>
      itemRow number choice item index)) ++
    if choice.mode = .single then
      "\n" ++ slashed "input" [("type", "hidden"), ("name", "Q" ++ toString number ++ "hidden")]
    else ""

def bodyField (number : Nat) : AnswerBody → String
  | .choice choice => choiceTable number choice
  | .answer answer => answerField answer

def questionForm (number : Nat) (body : AnswerBody) : String :=
  "        " ++ element "form" [("id", "Q" ++ toString number ++ "Form"),
    ("onSubmit", "return false;"), ("class", "question")]
    ("\n        " ++ bodyField number body ++ "\n" ++ questionButtons ++ "        ") ++ "\n"

def questionBlock (question : Question) (number : Nat) : String :=
  "      " ++ element "div" ([("id", "question" ++ toString number), ("class", "question")] ++
      if number = 1 then [("style", "display: block;")] else [])
    ("\n        " ++
      element "div" [("class", "question_text")] ("\n          " ++ question.text ++
        "\n        ") ++ "\n" ++
      questionForm number question.body ++
      "        " ++ element "div" [("class", "answer")]
        ("\n" ++ responses number question.body ++ "        ") ++ "\n      ") ++ "\n"

def discussionBlocks (quiz : Quiz) : String :=
  String.join ((quiz.discussions.zipIdx 1).map fun (discussion, index) =>
    discussionBlock (!quiz.questions.isEmpty && index == quiz.discussions.length) discussion index)

def questionBlocks (quiz : Quiz) : String :=
  String.join ((quiz.questions.zipIdx 1).map fun (question, number) =>
    questionBlock question number)

def warnings? (question : Question) (number : Nat) : Option String :=
  match question.body with
  | .choice { mode := .other name, .. } =>
    some ("question " ++ toString number ++ ": unknown choice type '" ++ name ++ "'")
  | _ => none

def warnings (quiz : Quiz) : List String :=
  (quiz.questions.zipIdx 1).filterMap fun (question, number) => warnings? question number

namespace Canvas
variable (canvas : Canvas)

@[simp] theorem write_text (s : String) : (canvas.write s).text = canvas.text ++ s := rfl

@[simp] theorem write_number (s : String) : (canvas.write s).number = canvas.number := rfl

@[simp] theorem write_empty : canvas.write "" = canvas := by
  rw [write, String.append_empty]

@[simp] theorem write_write (s t : String) : (canvas.write s).write t = canvas.write (s ++ t) := by
  rw [write, write, write, String.append_assoc]

@[simp] theorem warn_text (mode : ChoiceMode) : (canvas.warn mode).text = canvas.text := by
  cases mode <;> rfl

@[simp] theorem warn_number (mode : ChoiceMode) : (canvas.warn mode).number = canvas.number := by
  cases mode <;> rfl

end Canvas

theorem element_eq (name : String) (values : List (String × String)) (content : String) :
    element name values content = opening name values ++ content ++ closing name := by
  rw [element, opening, closing]
  simp only [String.append_assoc]

theorem questionBlock_eq (question : Question) (number : Nat) : questionBlock question number =
    questionOpening number question ++ bodyField number question.body ++
      questionClosing number question := by
  delta questionBlock questionForm questionOpening questionClosing
  simp only [element_eq, String.append_assoc]

section
variable (quiz : Quiz)

/-- Visits that only write, each the same for all canvases on which this question was begun last. -/
theorem visitAll_write {α : Type} {m : Methods Canvas} {node : α → Node} {drawn : α → String}
    {number : Nat} (h : ∀ x (canvas : Canvas), canvas.number = number →
      m.visit (node x) canvas = canvas.write (drawn x))
    (xs : List α) {canvas : Canvas} (hn : canvas.number = number) :
    m.visitAll (xs.map node) canvas = canvas.write (String.join (xs.map drawn)) := by
  induction xs generalizing canvas with
  | nil =>
    rw [List.map_nil, List.map_nil, String.join_nil, Canvas.write_empty]
    rfl
  | cons x xs ih =>
    rw [List.map_cons, List.map_cons, visitAll, List.foldl_cons, h x canvas hn, String.join_cons,
      ← Canvas.write_write]
    exact ih hn

theorem visit_discussion (index : Nat) (discussion : Discussion) (canvas : Canvas) :
    (drawing quiz).visit (.discussion index discussion) canvas =
      canvas.write (discussionBlock (!quiz.questions.isEmpty && index == quiz.discussions.length)
        discussion index) := by
  rw [visit_eq]
  rfl

theorem visit_item (choice : Choice) (x : Item × Nat) (canvas : Canvas) :
    (drawing quiz).visit (.item x.2 x.1 choice) canvas =
      canvas.write (itemRow canvas.number choice x.1 x.2) := by
  rw [visit_eq]
  rfl

theorem visit_choice (choice : Choice) (canvas : Canvas) :
    (drawing quiz).visit (.choice choice) canvas =
      (canvas.warn choice.mode).write (choiceTable canvas.number choice) := by
  -- neither what is told nor what is drawn of an item begins another question
  have hitems {begun : Canvas} (hn : begun.number = canvas.number) :
      (drawing quiz).visitAll (Node.choice choice).children begun =
        begun.write (String.join ((choice.items.zipIdx 1).map fun x =>
          itemRow canvas.number choice x.1 x.2)) := by
    apply visitAll_write _ _ hn
    intro x begun hn
    rw [visit_item, hn]
  have hbegun : ((canvas.warn choice.mode).write
      (opening "table" [("class", "question_choices")] ++ "\n")).number = canvas.number := by
    rw [Canvas.write_number, Canvas.warn_number]
  rw [visit_eq]
  change drawChoice choice _ canvas = _
  unfold drawChoice choiceTable
  simp only [hitems hbegun, element_eq, Canvas.write_write, Canvas.write_number, Canvas.warn_number]
  split
  · simp only [String.append_assoc]
  · simp only [String.append_assoc, String.append_empty]

/-- The field of the question begun last, and what there is to say of it. -/
theorem visit_body (question : Question) (canvas : Canvas) :
    (drawing quiz).visit question.body.node canvas =
      ⟨canvas.text ++ bodyField canvas.number question.body, canvas.number,
        canvas.warnings ++ (warnings? question canvas.number).toList⟩ := by
  obtain ⟨text, body⟩ := question
  cases body with
  | choice choice =>
    obtain ⟨mode, columns, items⟩ := choice
    refine (visit_choice quiz _ canvas).trans ?_
    cases mode with
    | other name => rfl
    | single => simp [Canvas.write, Canvas.warn, bodyField, warnings?]
    | multiple => simp [Canvas.write, Canvas.warn, bodyField, warnings?]
  | answer answer =>
    rw [AnswerBody.node, visit_eq]
    change canvas.write (answerField answer) = _
    simp [Canvas.write, bodyField, warnings?]

theorem visit_question (number : Nat) (question : Question) (canvas : Canvas) :
    (drawing quiz).visit (.question number question) canvas =
      ⟨canvas.text ++ questionBlock question number, number,
        canvas.warnings ++ (warnings? question number).toList⟩ := by
  rw [visit_eq]
  change drawQuestion number question ((drawing quiz).visit question.body.node) canvas = _
  unfold drawQuestion
  simp only [visit_body, questionBlock_eq, Canvas.write, String.append_assoc]

/-- Questions are drawn one after the other, each with its own number whatever number was left behind. -/
theorem visitAll_questions (xs : List (Question × Nat)) (canvas : Canvas) :
    ∃ number, (drawing quiz).visitAll (xs.map fun x => .question x.2 x.1) canvas =
      ⟨canvas.text ++ String.join (xs.map fun x => questionBlock x.1 x.2), number,
        canvas.warnings ++ xs.filterMap fun x => warnings? x.1 x.2⟩ := by
  induction xs generalizing canvas with
  | nil => exact ⟨canvas.number, by simp [visitAll]⟩
  | cons x xs ih =>
    obtain ⟨number, hxs⟩ := ih ((drawing quiz).visit (.question x.2 x.1) canvas)
    refine ⟨number, ?_⟩
    rw [List.map_cons, visitAll, List.foldl_cons]
    refine hxs.trans ?_
    -- the number in front of a question is written over when it begins
    rw [visit_question, List.map_cons, String.join_cons, String.append_assoc, List.append_assoc]
    cases h : warnings? x.1 x.2 <;> simp [h]

end

/-- A walk leaves the blocks of the discussions, the list of the quizzes and the blocks of the questions, and
it has told of each question what there is to say. -/
theorem draw_eq (quiz : Quiz) : ∃ number, draw quiz =
    ⟨discussionBlocks quiz ++ indexList quiz ++ questionBlocks quiz, number, warnings quiz⟩ := by
  have hdiscussions : (drawing quiz).walkDiscussions quiz {} =
      Canvas.write {} (discussionBlocks quiz) :=
    visitAll_write (fun x canvas _ => visit_discussion quiz x.2 x.1 canvas) _ rfl
  obtain ⟨number, hquestions⟩ := visitAll_questions quiz (quiz.questions.zipIdx 1)
    ((Canvas.write {} (discussionBlocks quiz)).write (indexList quiz))
  refine ⟨number, ?_⟩
  rw [draw, hdiscussions, visit_eq]
  refine hquestions.trans ?_
  simp [Canvas.write, questionBlocks, warnings]

theorem parts_questions (options : Options) (quiz : Quiz) : (parts options quiz).questions =
    discussionBlocks quiz ++ indexList quiz ++ questionBlocks quiz := by
  obtain ⟨number, hdraw⟩ := draw_eq quiz
  rw [parts, hdraw]

theorem page_eq (options : Options) (quiz : Quiz) : page options quiz =
    (Layout.ofName options.layout).map fun layout =>
      { document := layout.page quiz (parts options quiz)
        artifacts := artifacts quiz
        warnings := warnings quiz } := by
  obtain ⟨number, hdraw⟩ := draw_eq quiz
  rw [page, hdraw]
  cases Layout.ofName options.layout <;> rfl

end QuizPress.Render.Page
