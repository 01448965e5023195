import QuizPress.Quiz.Basic
import QuizPress.Render.Format
import QuizPress.Render.Page.AnswerKey
import QuizPress.Render.Page.Index
import QuizPress.Render.Page.Markup

/-! What stands in the head of a page after its title. -/
namespace QuizPress.Render.Page
open Quiz

def styleSheet (url : String) : String :=
  lone "link" [("href", url), ("type", "text/css"), ("rel", "stylesheet")]

def scriptFile (url : String) : String :=
  element "script" [("src", url), ("type", "text/javascript")] ""

def startScript (quizName : String) (quiz : Quiz) : String :=
  "\n" ++ answerKey quiz ++
    "    document.addEventListener(\"DOMContentLoaded\", function(event) \x7b\n" ++
    "      MathQuizInit(" ++ toString quiz.questions.length ++ "," ++
    toString quiz.discussions.length ++ ",'" ++ scriptText quizName ++ "');\n" ++
    "    \x7d);\n  "

def head (options : Options) (quiz : Quiz) : String :=
  "  " ++ lone "meta" [("name", "generator"), ("content", "mq 0.1.0")] ++ "\n" ++
    "  " ++ slashed "meta" [("name", "viewport"), ("content", "width=device-width")] ++ "\n" ++
    "  " ++ lone "meta" [("http-equiv", "Content-Type"), ("content", "text/html; charset=utf-8")] ++
    "\n" ++
    "  " ++ styleSheet (options.baseUrl ++ "mathquiz.css") ++ "\n" ++
    "  " ++ styleSheet (options.quizName ++ ".css") ++ "\n" ++
    String.join (quiz.metas.map fun values => "  " ++ slashed "meta" values ++ "\n") ++
    String.join (quiz.links.map fun values => "  " ++ slashed "link" values ++ "\n") ++
    "  " ++ scriptFile (options.baseUrl ++ "mathquiz.js") ++ "\n" ++
    "  " ++ scriptFile titlesFile ++ "\n" ++
    "  " ++ element "script" [("type", "text/javascript")] (startScript options.quizName quiz) ++
    "\n"

end QuizPress.Render.Page
