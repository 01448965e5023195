import QuizPress.Decimal.Literal
import QuizPress.Quiz.Basic
import QuizPress.Render.Page.Markup
import QuizPress.Text.Blank

/-! The script lines that tell a page the right answers. -/
namespace QuizPress.Render.Page
open Quiz Text

/-- A value as a literal of the script. A number is written in canonical form, so that it can be
compared as a number; all other texts are quoted. -/
def valueLiteral (value : String) : String :=
  match (Decimal.Literal.read? (trimmed value.toList)).bind (·.canonical?) with
  | some number => number
  | none => "\"" ++ scriptText value ++ "\""

def keyed (position : Nat) : String :=
  "QuizSpecifications[" ++ toString position ++ "]"

def itemKey (position : Nat) (item : Item) (index : Nat) : String :=
  keyed position ++ "[" ++ toString index ++ "]=" ++ toString item.expect ++ ";\n"

def writeKey (position : Nat) (question : Question) (out : String) : String :=
  let out := out ++ keyed position ++ "=new Array();\n"
  match question.body with
  | .answer a =>
    out ++ keyed position ++ ".value=" ++ valueLiteral a.value ++ ";\n" ++
      keyed position ++ ".type=\"input\";\n"
  | .choice c =>
    c.items.zipIdx.foldl (fun out (item, index) => out ++ itemKey position item index)
      (out ++ keyed position ++ ".type=\"" ++ scriptText c.mode.name ++ "\";\n")

def answerKey (quiz : Quiz) : String :=
  quiz.questions.zipIdx.foldl (fun out (question, position) => writeKey position question out) ""

end QuizPress.Render.Page
