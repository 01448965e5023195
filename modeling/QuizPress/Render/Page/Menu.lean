import QuizPress.Quiz.Basic
import QuizPress.Render.Page.Markup

/-! The menu at the side of a page, and the header above its questions. -/
namespace QuizPress.Render.Page
open Quiz

/-- The entry of a discussion, which is addressed by a negative number. -/
def discussionEntry (discussion : Discussion) (index : Nat) : String :=
  "        " ++ element "li" [("class", "discussion"),
    ("onClick", "gotoQuestion(-" ++ toString index ++ ")")] (plain discussion.heading) ++ "\n"

def discussionList (quiz : Quiz) : String :=
  if quiz.discussions.isEmpty then ""
  else
    "      " ++ element "ul" [] ("\n" ++
      String.join ((quiz.discussions.zipIdx 1).map fun (discussion, index) =>
        discussionEntry discussion index) ++ "      ") ++ "\n"

/-- The button of a question. The first one is selected if nothing is to be read before it. -/
def questionButton (selectFirst : Bool) (number : Nat) : String :=
  "        " ++ element "div" [("id", "button" ++ toString number),
    ("class", if number = 1 ∧ selectFirst then "button button-selected" else "button"),
    ("content", ""), ("onClick", "gotoQuestion(" ++ toString number ++ ")")] (toString number) ++
    "\n"

def markingRow (style sign meaning : String) : String :=
  "        " ++ element "tr" []
    (element "td" [("style", style)] sign ++ element "td" [] meaning) ++ "\n"

def markingKey : String :=
  "      " ++ element "table" [("class", "marking_key")] ("\n" ++
    markingRow "color: #FFCC00; font-size:small;" "&starf;" ("right first" ++ lone "br" [] ++
      "attempt") ++
    markingRow "color: green; font-size:medium;" "&check;" "right" ++
    markingRow "color: red; font-size:medium;" "&cross;" "wrong" ++ "      ") ++ "\n"

def sideMenu (quiz : Quiz) : String :=
  "      " ++ element "div" [] "MathQuiz" ++ "\n" ++
    discussionList quiz ++
    "      " ++ element "div" [("class", "buttons")] ("\n        " ++
      element "div" [("class", "question_label")] "&nbsp;Questions&nbsp;" ++ "\n        " ++
      lone "br" [] ++ "\n" ++
      String.join ((List.range' 1 quiz.questions.length).map
        (questionButton quiz.discussions.isEmpty)) ++ "      ") ++ "\n" ++
    "      " ++ element "div" [("style", "clear:left; height: 1em;")] "" ++ "\n" ++
    markingKey

def arrow (step hint sign : String) : String :=
  "          " ++ element "div" [("onClick", "nextQuestion(" ++ step ++ ");")]
    (element "div" [("class", "tooltip")] hint ++ sign) ++ "\n"

def navigation : String :=
  "        " ++ element "div" [("class", "arrows")] ("\n" ++
    arrow "-1" "Previous unanswered question" "&#x25c4;" ++
    "          " ++ element "div" [("class", "question_label")] "Questions" ++ "\n" ++
    arrow "1" "Next unanswered question" "&#x25ba;" ++ "        ") ++ "\n"

def quizHeader (quiz : Quiz) : String :=
  "      " ++ element "div" [("class", "quiz_header")] ("\n        " ++
    element "div" [("class", "quiz_title")] (plain quiz.title) ++ "\n        " ++
    element "div" [("style", "clear:both;")] "" ++ "\n" ++
    (if quiz.questions.isEmpty then ""
      else "        " ++ element "div" [("id", "question_number"), ("class", "question_label")]
        "Question 1" ++ "\n" ++ navigation) ++ "      ") ++ "\n"

end QuizPress.Render.Page
