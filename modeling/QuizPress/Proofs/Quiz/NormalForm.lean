import QuizPress.Proofs.Text
import QuizPress.Quiz.Basic

/-! The normal form of a quiz: texts trimmed, blank tags left out, modes under their own name. -/
namespace QuizPress.Quiz
open Text

def Discussion.normal (d : Discussion) : Discussion := { d with body := trim d.body }

def Item.normal (i : Item) : Item := { i with text := trim i.text, response := trim i.response }

def Choice.normal (c : Choice) : Choice :=
  { c with mode := .ofName c.mode.name, items := c.items.map Item.normal }

/-- A tag that holds nothing but blanks is no tag. -/
def Answer.normal (a : Answer) : Answer :=
  { a with
    tag := (a.tag.map trim).filter (!·.isEmpty)
    whenRight := trim a.whenRight
    whenWrong := trim a.whenWrong }

def AnswerBody.normal : AnswerBody → AnswerBody
  | choice c => .choice c.normal
  | answer a => .answer a.normal

def Question.normal (q : Question) : Question := ⟨trim q.text, q.body.normal⟩

def AnswerBody.fits : AnswerBody → Bool
  | choice c => c.items.length ≤ Choice.maxItems
  | answer _ => true

end QuizPress.Quiz

namespace QuizPress
open Quiz

def Quiz.normal (q : Quiz) : Quiz :=
  { q with
    discussions := q.discussions.map Discussion.normal
    questions := q.questions.map Question.normal }

end QuizPress
