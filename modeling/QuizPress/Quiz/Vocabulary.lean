/-! The elements that have a meaning in a quiz document. All others are inline markup. -/
namespace QuizPress.Quiz

inductive Element where
  | quiz
  | metaData
  | link
  | course
  | quizListItem
  | discussion
  | question
  | choice
  | answer
  | item
  | text
  | tag
  | response
  | whenRight
  | whenWrong
deriving DecidableEq, Repr

namespace Element

/-- The element of a name; feedback elements have two spellings. -/
def ofName? (name : String) : Option Element :=
  [("quiz", quiz), ("meta", metaData), ("link", link), ("course", course),
    ("quizlistitem", quizListItem), ("discussion", discussion), ("question", question),
    ("choice", choice), ("answer", answer), ("item", item), ("text", text), ("tag", tag),
    ("response", response), ("when_right", whenRight), ("whenRight", whenRight),
    ("when_wrong", whenWrong), ("whenWrong", whenWrong)].lookup name

def name : Element → String
  | quiz => "quiz"
  | metaData => "meta"
  | link => "link"
  | course => "course"
  | quizListItem => "quizlistitem"
  | discussion => "discussion"
  | question => "question"
  | choice => "choice"
  | answer => "answer"
  | item => "item"
  | text => "text"
  | tag => "tag"
  | response => "response"
  | whenRight => "when_right"
  | whenWrong => "when_wrong"

end Element

end QuizPress.Quiz
