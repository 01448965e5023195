import QuizPress.Quiz.Basic

/-! The plain text outline of a quiz and of each of its parts. A part is written behind what is there
already; its outline is what it writes when nothing is. -/
namespace QuizPress

namespace Quiz

def Discussion.write (discussion : Discussion) (out : String) : String :=
  out ++ "Discussion(" ++ discussion.heading ++ "): " ++ discussion.body

def Item.write (item : Item) (out : String) : String :=
  let out := out ++ toString item.expect ++ ": " ++ item.text
  if item.response.isEmpty then out else out ++ "\nResponse: " ++ item.response

def Choice.write (choice : Choice) (out : String) : String :=
  choice.items.foldl (fun out item => item.write out ++ "\n")
    (out ++ "Choices (" ++ choice.mode.name ++ "):\n")

def Answer.write (answer : Answer) (out : String) : String :=
  out ++ answer.value ++ ": " ++ answer.tag.getD "" ++ "\n" ++
    "Right: " ++ answer.whenRight ++ "\n" ++
    "Wrong: " ++ answer.whenWrong ++ "\n"

def AnswerBody.write : AnswerBody → String → String
  | choice c => c.write
  | answer a => a.write

def Question.write (question : Question) (out : String) : String :=
  question.body.write (out ++ "Question: " ++ question.text ++ "\n")

def Discussion.outline (discussion : Discussion) : String := discussion.write ""

def Item.outline (item : Item) : String := item.write ""

def Choice.outline (choice : Choice) : String := choice.write ""

def Answer.outline (answer : Answer) : String := answer.write ""

def Question.outline (question : Question) : String := question.write ""

end Quiz

def Quiz.write (quiz : Quiz) (out : String) : String :=
  let out := out ++ "Quiz: " ++ quiz.title ++ "\n"
  let out := quiz.discussions.foldl (fun out discussion => discussion.write out ++ "\n") out
  quiz.questions.foldl (fun out question => question.write out ++ "\n") out

def Quiz.outline (quiz : Quiz) : String := quiz.write ""

end QuizPress
