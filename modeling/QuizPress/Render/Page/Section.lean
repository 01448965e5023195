import QuizPress.Quiz.Basic
import QuizPress.Render.Page.Markup

/-! The discussions and questions of a page, with what is said about each answer. -/
namespace QuizPress.Render.Page
open Quiz

def startButton : String :=
  "\n        " ++ slashed "input" [("type", "button"), ("name", "next"), ("value", "Start quiz"),
    ("onClick", "return gotoQuestion(1);")]

/-- The discussion at a position counted from one; the last one before questions leads to them. -/
def discussionBlock (leads : Bool) (discussion : Discussion) (index : Nat) : String :=
  "      " ++ element "div" [("id", "question-" ++ toString index), ("class", "question")] (
    element "h2" [] (plain discussion.heading) ++ "\n        " ++
    element "p" [] discussion.body ++ (if leads then startButton else "") ++ "\n      ") ++ "\n"

def itemLabel (index : Nat) : String :=
  ((Choice.label? index).getD '?').toString

def selectable (control text : String) : String :=
  element "td" [] control ++
    element "td" [] (element "div" [("class", "question_choices")] text)

def itemControl (number : Nat) (mode : ChoiceMode) (item : Item) (index : Nat) : String :=
  match mode with
  | .single =>
    selectable (slashed "input" [("type", "radio"),
      ("name", "Q" ++ toString number ++ "option")]) item.text
  | .multiple =>
    selectable (slashed "input" [("type", "checkbox"),
      ("name", "Q" ++ toString number ++ "option" ++ toString index)]) item.text
  | .other name => "<!-- internal error: unknown choice type " ++ commentText name ++ " -->"

def itemCells (number : Nat) (mode : ChoiceMode) (item : Item) (index : Nat) : String :=
  element "td" [("class", "brown")] (itemLabel index ++ ")") ++ itemControl number mode item index

/-- The cells of an item with the row tags that belong before and after them. -/
def itemRow (number : Nat) (choice : Choice) (item : Item) (index : Nat) : String :=
  (if choice.startsRow index then "<tr>" else "") ++
    itemCells number choice.mode item index ++
    (if choice.endsRow index then "</tr>\n" else "")

def answerField (answer : Answer) : String :=
  slashed "input" [("type", "text"), ("onChange", "checkAnswer();"), ("size", "5")] ++
    match answer.tag with
    | some tag => " " ++ element "span" [("class", "question_text")] tag
    | none => ""

def questionButtons : String :=
  "        " ++ element "p" [] ("\n          " ++
    slashed "input" [("type", "button"), ("value", "Check Answer"), ("name", "answer"),
      ("class", "input_button"), ("onClick", "checkAnswer();")] ++ "\n          " ++
    slashed "input" [("type", "button"), ("value", "Next Question"), ("class", "input_button"),
      ("title", "Next unanswered question"), ("name", "next"), ("onClick", "nextQuestion(1);")] ++
    "\n        ") ++ "\n"

def responseBlock (id content : String) : String :=
  "          " ++ element "div" [("id", id), ("class", "response")] content ++ "\n"

def responseId (number : Nat) (name : String) : String :=
  "q" ++ toString number ++ name

def answerResponse (number : Nat) (name verdict feedback : String) : String :=
  responseBlock (responseId number name) (element "em" [] verdict ++ "\n            " ++
    element "div" [] feedback ++ "\n          ")

def answerResponses (number : Nat) (answer : Answer) : String :=
  answerResponse number "true" "Correct!" answer.whenRight ++
    answerResponse number "false" "Incorrect. Please try again." answer.whenWrong

def singleResponse (number : Nat) (item : Item) (index : Nat) : String :=
  responseBlock (responseId number ("response" ++ toString index)) ("\n            " ++
    element "em" [] ("Choice (" ++ itemLabel index ++ ") is " ++
      element "span" [("class", "dazzle")] (if item.expect then "correct" else "incorrect")) ++
    element "div" [] item.response ++ "\n          ")

def multipleResponse (number : Nat) (item : Item) (index : Nat) : String :=
  responseBlock (responseId number ("response" ++ toString index)) ("\n            " ++
    element "em" [] "There is at least one mistake." ++ lone "br" [] ++ "For example, choice " ++
    element "span" [("class", "brown")] ("(" ++ itemLabel index ++ ")") ++ " should be " ++
    element "span" [("class", "dazzle")] (toString item.expect) ++ ".\n            " ++
    element "div" [] item.response ++ "\n          ")

def solutionLine (item : Item) : String :=
  "              " ++ element "li" []
    (element "em" [] (if item.expect then "True" else "False") ++ " " ++ item.response) ++ "\n"

def solution (number : Nat) (choice : Choice) : String :=
  responseBlock (responseId number "response0") (
    element "em" [("class", "dazzle")] "Correct!" ++ "\n            " ++
    element "ol" [] ("\n" ++ String.join (choice.items.map solutionLine) ++ "            ") ++
    "\n          ")

def choiceResponses (number : Nat) (choice : Choice) : String :=
  let each (response : Nat → Item → Nat → String) :=
    String.join ((choice.items.zipIdx 1).map fun (item, index) => response number item index)
  match choice.mode with
  | .single => each singleResponse
  | .multiple => each multipleResponse ++ solution number choice
  | .other _ => ""

def responses (number : Nat) : AnswerBody → String
  | .answer answer => answerResponses number answer
  | .choice choice => choiceResponses number choice

end QuizPress.Render.Page
