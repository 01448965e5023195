import QuizPress.Quiz.Basic
import QuizPress.Render.Format
import QuizPress.Render.Page.Markup

/-! The quizzes of a course: the list on a page, and the script that its menu is made of. -/
namespace QuizPress.Render.Page
open Quiz

def indexLine (entry : IndexEntry) : String :=
  "          " ++ element "li" [] (element "a" [("href", entry.url)] (plain entry.title)) ++ "\n"

def indexList (quiz : Quiz) : String :=
  if quiz.index.isEmpty then ""
  else
    "      " ++ element "div" [("class", "quiz_list")] (
      element "h2" [] (plain quiz.course.name ++ " Quizzes") ++ "\n        " ++
      element "ul" [] ("\n" ++ String.join (quiz.index.map indexLine) ++ "        ") ++
      "\n      ") ++ "\n"

def titlesFile : String := "quiztitles.js"

def titlesLine (courseUrl : String) (entry : IndexEntry) : String :=
  "  ['" ++ scriptText entry.title ++ "', '" ++ scriptText courseUrl ++ "Quizzes/" ++
    scriptText entry.url ++ "']"

def titlesScript (quiz : Quiz) : String :=
  "var QuizTitles = [\n" ++ ",\n".intercalate (quiz.index.map (titlesLine quiz.course.url)) ++
    "\n];\n"

/-- The script stands beside the page, unless there are no quizzes to list. -/
def artifacts (quiz : Quiz) : List Artifact :=
  if quiz.index.isEmpty then [] else [⟨titlesFile, titlesScript quiz⟩]

end QuizPress.Render.Page
