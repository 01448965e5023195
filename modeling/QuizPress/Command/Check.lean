import QuizPress.Command.Basic

/-! The command that reads quiz files and says what is in them. -/
namespace QuizPress.Command
open Files Quiz

def isChoice (question : Question) : Bool :=
  match question.body with
  | .choice _ => true
  | .answer _ => false

def summary (quiz : Quiz) : String :=
  let total := quiz.questions.length
  let choices := quiz.questions.countP isChoice
  "'" ++ quiz.title ++ "': " ++ toString total ++ " questions (" ++ toString choices ++
    " choice, " ++ toString (total - choices) ++ " answer), " ++
    toString quiz.discussions.length ++ " discussions"

def checkFile (tree : Tree) (cwd : Location) (argument : String) : Except CommandError String :=
  (readInput tree cwd argument).map fun (_, quiz) => summary quiz

def checkMessage (tree : Tree) (cwd : Location) (argument : String) : String :=
  argument ++ ": " ++ match checkFile tree cwd argument with
    | .ok summary => summary
    | .error error => error.message

def isFailure (tree : Tree) (cwd : Location) (argument : String) : Bool :=
  match checkFile tree cwd argument with
  | .ok _ => false
  | .error _ => true

/-- Checks all files, whether or not one fails. -/
def check (session : Session) (inputs : List String) : Outcome :=
  let messages := inputs.map (checkMessage session.tree session.cwd)
  let failed := inputs.countP (isFailure session.tree session.cwd)
  if failed = 0 then
    { tree := session.tree, messages := messages ++ [toString inputs.length ++ " files OK"] }
  else
    { tree := session.tree, messages := messages, error := some (.failures failed inputs.length) }

end QuizPress.Command
