import QuizPress.Proofs.Quiz.Gifts

/-! A quiz put together from the tree of its document: nothing is lost, nothing comes twice, and each
text is that of its own part. -/
namespace QuizPress.Quiz
open Text Xml Builder Content

variable {b b' : Builder} {name : String} {kind : Element} {inner : Content}

def within (kind : Element) (parts : List Part) : List Part :=
  parts.flatMap fun part => (if part.element = kind then [part] else []) ++ part.inner.all kind

def Question.items (question : Question) : List Item :=
  match question.body with
  | .choice c => c.items
  | .answer _ => []

end QuizPress.Quiz
