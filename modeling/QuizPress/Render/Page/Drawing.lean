import QuizPress.Quiz.Node
import QuizPress.Render.Page.Index
import QuizPress.Render.Page.Section

/-! The discussions and questions of a page drawn on the way through a quiz: at each node the text for it is
added, and at a choice it is told what is unknown of it, with the number of the question that was last begun. -/
namespace QuizPress.Render.Page
open Quiz

/-- What is drawn so far, the number of the question begun last, and what there is to say of the questions. -/
structure Canvas where
  text : String := ""
  number : Nat := 0
  warnings : List String := []
deriving DecidableEq, Repr

def unknownChoice (number : Nat) (mode : String) : String :=
  "question " ++ toString number ++ ": unknown choice type '" ++ mode ++ "'"

namespace Canvas

def write (canvas : Canvas) (s : String) : Canvas := { canvas with text := canvas.text ++ s }

def warn (canvas : Canvas) : ChoiceMode → Canvas
  | .other name => { canvas with warnings := canvas.warnings ++ [unknownChoice canvas.number name] }
  | .single | .multiple => canvas

end Canvas

def questionOpening (number : Nat) (question : Question) : String :=
  "      " ++ opening "div" ([("id", "question" ++ toString number), ("class", "question")] ++
      if number = 1 then [("style", "display: block;")] else []) ++
    "\n        " ++ element "div" [("class", "question_text")]
      ("\n          " ++ question.text ++ "\n        ") ++ "\n" ++
    "        " ++ opening "form" [("id", "Q" ++ toString number ++ "Form"),
      ("onSubmit", "return false;"), ("class", "question")] ++ "\n        "

def questionClosing (number : Nat) (question : Question) : String :=
  "\n" ++ questionButtons ++ "        " ++ closing "form" ++ "\n" ++
    "        " ++ element "div" [("class", "answer")]
      ("\n" ++ responses number question.body ++ "        ") ++ "\n      " ++ closing "div" ++ "\n"

def drawQuestion (number : Nat) (question : Question) (walk : Canvas → Canvas) (canvas : Canvas) : Canvas :=
  let begun := { canvas with number }.write (questionOpening number question)
  (walk begun).write (questionClosing number question)

/-- A table around what is drawn of its items. It belongs to the question begun last. -/
def drawChoice (choice : Choice) (walk : Canvas → Canvas) (canvas : Canvas) : Canvas :=
  let begun := (canvas.warn choice.mode).write (opening "table" [("class", "question_choices")] ++ "\n")
  let drawn := (walk begun).write (closing "table")
  if choice.mode = .single then
    drawn.write ("\n" ++ slashed "input"
      [("type", "hidden"), ("name", "Q" ++ toString drawn.number ++ "hidden")])
  else drawn

def drawing (quiz : Quiz) : Methods Canvas where
  discussion index discussion canvas :=
    canvas.write (discussionBlock (!quiz.questions.isEmpty && index == quiz.discussions.length)
      discussion index)
  question := drawQuestion
  choice := drawChoice
  item index item choice canvas := canvas.write (itemRow canvas.number choice item index)
  answer answer canvas := canvas.write (answerField answer)

/-- The discussions are drawn first, then the list of the quizzes, then what is visited of the quiz. -/
def draw (quiz : Quiz) : Canvas :=
  (drawing quiz).visit (.quiz quiz) (((drawing quiz).walkDiscussions quiz {}).write (indexList quiz))

end QuizPress.Render.Page
