import QuizPress.Quiz.Basic
import QuizPress.Render.Format
import QuizPress.Render.Page.Markup

/-! The frames that the parts of a page are put in. -/
namespace QuizPress.Render.Page
open Quiz

/-- The parts of a page; the head comes without the title. -/
structure Parts where
  head : String
  sideMenu : String
  quizHeader : String
  questions : String
deriving DecidableEq, Repr

inductive Layout where
  | standard
  | course
deriving DecidableEq, Repr

namespace Layout

def name : Layout → String
  | standard => "standard"
  | course => "course"

def ofName (name : String) : Except RenderError Layout :=
  if name = "standard" then .ok standard
  else if name = "course" then .ok course
  else .error (.unknownLayout name)

def breadcrumbs (layout : Layout) (quiz : Quiz) : String :=
  match layout with
  | standard =>
    if quiz.breadcrumb.isEmpty then ""
    else element "div" [("class", "breadcrumbs")] quiz.breadcrumb
  | course =>
    element "div" [("class", "breadcrumbs")] (
      element "a" [("href", quiz.course.url)] (plain quiz.course.code) ++ " / " ++
      element "a" [("href", quiz.course.url ++ "Quizzes")] "Quizzes" ++ " / " ++ plain quiz.title)

def noScript : String :=
  element "noscript" [] ("\n      " ++ element "div" [("class", "warning")] (
    "\n        If you are reading this message either your browser does not support\n" ++
    "        JavaScript or because JavaScript is not enabled. You will need to enable\n" ++
    "        JavaScript and then reload this page in order to use this quiz.\n      ") ++
    "\n    ")

def columns (parts : Parts) : String :=
  "    " ++ element "div" [("class", "side_menu")] ("\n" ++ parts.sideMenu ++ "    ") ++ "\n" ++
    "    " ++ element "div" [("class", "quiz_questions")]
      ("\n" ++ parts.quizHeader ++ parts.questions ++ "    ") ++ "\n"

def body (layout : Layout) (quiz : Quiz) (parts : Parts) : String :=
  match layout with
  | standard =>
    "\n  " ++ layout.breadcrumbs quiz ++ "\n  " ++ noScript ++ "\n  " ++
      element "div" [("class", "quiz_page")] ("\n" ++ columns parts ++ "  ") ++ "\n"
  | course =>
    "\n  " ++ element "div" [("class", "quizpage")] (
      "\n    " ++ layout.breadcrumbs quiz ++ "\n    " ++ noScript ++ "\n" ++ columns parts ++
      "  ") ++ "\n"

def html (layout : Layout) (quiz : Quiz) (parts : Parts) : String :=
  element "html" [("lang", "en")] ("\n" ++
    element "head" [] ("\n  " ++ element "title" [] (plain quiz.title) ++ "\n" ++ parts.head) ++
    "\n\n" ++ element "body" [] (layout.body quiz parts) ++ "\n")

def page (layout : Layout) (quiz : Quiz) (parts : Parts) : String :=
  "<!DOCTYPE HTML>\n" ++ layout.html quiz parts ++ "\n"

end Layout

end QuizPress.Render.Page
