import QuizPress.Quiz.Node

/-! A quiz as the TeX source of a paper quiz. -/
namespace QuizPress.Render.Paper
open Quiz

def braced (s : String) : String := "\x7b" ++ s ++ "\x7d"

def discussion (d : Discussion) : String :=
  "\n\\section*" ++ braced d.heading ++ "\n" ++ d.body ++ "\n"

/-- A response stands in brackets on a line of its own. -/
def item (i : Item) : String :=
  "\\part " ++ i.text ++ (if i.expect then "\\correct" else "") ++ "\n" ++
    if i.response.isEmpty then "" else "[" ++ i.response ++ "]\n"

def questionOpening (q : Question) : String :=
  "\n\\exercise\n" ++ q.text ++ "\n"

def answerBox : String :=
  "\\fbox" ++ braced ("\\hbox to 1cm" ++ braced "\\strut\\hfil") ++ "\n"

/-- What stands before the discussions: the header names the number of questions and of the answer
slots that each of them gets. -/
def head (answerSlots : Nat) (quiz : Quiz) : String :=
  "\\input genquiz.sty\n" ++
    "\\def\\quizid" ++ braced quiz.source ++ "\n" ++
    "\\def\\infoline" ++ braced quiz.title ++ "\n" ++
    "\\RecordAnswers\n" ++
    "\\quiztop" ++ braced (toString quiz.questions.length) ++ braced (toString answerSlots) ++
    "\n" ++
    "\\signaturebox\n\\vskip\\quizskip\n" ++
    "You may use the space below for your own work.\n\\newpage\n"

def writing : Methods String where
  discussion _ d out := out ++ discussion d
  question _ q walk out := walk (out ++ questionOpening q)
  choice _ walk out := walk (out ++ "\\beginparts\n") ++ "\\endparts\n"
  item _ i _ out := out ++ item i
  answer _ out := out ++ answerBox

def document (answerSlots : Nat) (quiz : Quiz) : String :=
  writing.visit (.quiz quiz) (writing.walkDiscussions quiz (head answerSlots quiz)) ++ "\\bye\n"

end QuizPress.Render.Paper
