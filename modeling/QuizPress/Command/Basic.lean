import QuizPress.Config.Load
import QuizPress.Files.Tree
import QuizPress.Quiz.Builder
import QuizPress.Render.Basic

/-! What the commands have in common: where they run, what they read, and how they end. -/
namespace QuizPress.Command
open Files Quiz

structure Session where
  tree : Tree := {}
  cwd : Location := []
  environment : Config.Environment := []
deriving Repr, Inhabited

/-- Why a command fails. The output is taken to accept all that is put out: of a closed pipe or a full
disk behind it nothing is known here, so that there is no error about it. -/
inductive CommandError where
  | config (error : Config.ConfigError)
  | parse (error : ParseError)
  | render (error : Render.RenderError)
  | write (path : String) (error : FileError)
  | severalInputs
  | noFile (path : String)
  | failures (failed total : Nat)
deriving DecidableEq, Repr

def CommandError.message : CommandError → String
  | config error => error.message
  | parse error => error.message
  | render error => error.message
  | write path error => "Cannot write " ++ path ++ ": " ++ error.message
  | severalInputs => "--output can only be used with a single input file"
  | noFile path => "Cannot read file " ++ path
  | failures failed total =>
    toString failed ++ " of " ++ toString total ++ " files failed to parse"

/-- What a command leaves behind: files, output, messages in order, and an error if it failed. -/
structure Outcome where
  tree : Tree
  output : String := ""
  messages : List String := []
  error : Option CommandError := none
deriving DecidableEq, Repr

def Outcome.exitCode (outcome : Outcome) : Nat :=
  if outcome.error.isNone then 0 else 1

def Outcome.report (outcome : Outcome) : List String :=
  outcome.messages ++ outcome.error.toList.map fun error => "Error: " ++ error.message

/-- The path that an argument names: without an extension, that of quiz documents is meant. -/
def inputPath (argument : String) : String :=
  if (Path.extension? argument).isNone then Path.withExtension argument "xml" else argument

def resolve (tree : Tree) (cwd : Location) (argument : String) : Except CommandError String :=
  let path := inputPath argument
  if tree.isFile cwd path then .ok path else .error (.noFile path)

/-- The quiz in the file at a path. A directory can be opened, but not read. -/
def parseFile (tree : Tree) (cwd : Location) (path : String) : Except ParseError Quiz :=
  match tree.read cwd path with
  | .ok octets => parseOctets octets
  | .error .isDirectory => .error (.unreadable .isDirectory)
  | .error error => .error (.notOpened path error)

def readInput (tree : Tree) (cwd : Location) (argument : String) :
    Except CommandError (String × Quiz) := do
  let path ← resolve tree cwd argument
  let quiz ← (parseFile tree cwd path).mapError .parse
  return (path, quiz)

end QuizPress.Command
