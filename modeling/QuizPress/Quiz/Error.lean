import QuizPress.Files.Error
import QuizPress.Quiz.Basic
import QuizPress.Quiz.Vocabulary
import QuizPress.Xml.Fault

/-! Why a document is no quiz. -/
namespace QuizPress.Quiz
open Files

/-- Questions are counted from one; the absent parent is the top level of the quiz. -/
inductive ParseError where
  | xml (fault : Xml.Fault)
  | unreadable (error : FileError)
  | notOpened (path : String) (error : FileError)
  | duplicateAnswerBody (question : Nat)
  | missingAnswerBody (question : Nat)
  | tooManyItems (question : Nat)
  | misplaced (element : Element) (parent : Option Element)
  | missingRoot
  | unexpectedEnd (element : Element)
deriving DecidableEq, Repr

def ParseError.message : ParseError → String
  | xml fault => fault.message
  | unreadable error => "XML error at byte 0: I/O error: " ++ error.message
  | notOpened path error => "Cannot read file " ++ path ++ ": " ++ error.message
  | duplicateAnswerBody question =>
    "Processing halted. Multiple <choice>/<answer> tags in question " ++ toString question
  | missingAnswerBody question =>
    "question " ++ toString question ++ " has no <choice> or <answer>"
  | tooManyItems question =>
    "question " ++ toString question ++ " has more than " ++ toString Choice.maxItems ++
      " choice items"
  | misplaced element parent =>
    "<" ++ element.name ++ "> is not allowed inside <" ++ (parent.getD .quiz).name ++ ">"
  | missingRoot => "document has no <quiz> element"
  | unexpectedEnd element => "unexpected end of document inside <" ++ element.name ++ ">"

end QuizPress.Quiz
