import QuizPress.Command.Basic
import QuizPress.Text.Glyph

/-! The command that renders quiz files. -/
namespace QuizPress.Command
open Files Render

structure BuildArguments where
  inputs : List String
  format : Option String := none
  layout : Option String := none
  url : Option String := none
  answerSlots : Option Nat := none
  output : Option String := none
  config : Option String := none
deriving DecidableEq, Repr

def urlVariable : String := "MQ_BASE_URL"

def BuildArguments.overrides (arguments : BuildArguments) (environment : Config.Environment) :
    Config.Overrides where
  format := arguments.format
  baseUrl := arguments.url <|> environment.value? urlVariable
  layout := arguments.layout
  answerSlots := arguments.answerSlots

structure Plan where
  format : Format
  config : Config
  output : Option String
deriving DecidableEq, Repr

/-- Settles everything that can fail before the first file is read. -/
def plan (session : Session) (arguments : BuildArguments) : Except CommandError Plan := do
  if arguments.output.isSome ∧ 1 < arguments.inputs.length then .error .severalInputs
  else
    let config ← (Config.load session.tree session.cwd session.environment arguments.config
      (arguments.overrides session.environment)).mapError .config
    let format ← (Format.ofName config.format).mapError .render
    if format = .html then
      let _ ← (Page.Layout.ofName config.layout).mapError .render
      return ⟨format, config, arguments.output⟩
    else return ⟨format, config, arguments.output⟩

/-- The file that a document goes to: the one asked for, else for a page the one beside the quiz.
All other documents go to the output. -/
def Plan.target? (plan : Plan) (input : String) : Option String :=
  plan.output <|>
    if plan.format = .html then some (Path.withExtension input plan.format.fileExtension) else none

def Plan.options (plan : Plan) (input : String) : Options where
  baseUrl := plan.config.baseUrl
  layout := plan.config.layout
  quizName := (Path.stem? input).getD "quiz"
  answerSlots := plan.config.answerSlots

/-- Writes a text to a file; an outcome that has failed stays as it is. -/
def Outcome.write (outcome : Outcome) (cwd : Location) (path contents : String) : Outcome :=
  if outcome.error.isSome then outcome
  else match outcome.tree.save cwd path (Text.encode contents) with
    | .ok tree => { outcome with tree := tree }
    | .error error => { outcome with error := some (.write path error) }

def Outcome.say (outcome : Outcome) (messages : List String) : Outcome :=
  if outcome.error.isSome then outcome
  else { outcome with messages := outcome.messages ++ messages }

/-- Puts a rendering where it belongs, and the files beside it into the same directory. A document that
goes to the output gets there, as all that is put out does. -/
def Outcome.deliver (outcome : Outcome) (cwd : Location) (input : String)
    (target : Option String) (rendered : Rendered) : Outcome :=
  let written := match target with
    | some path => outcome.write cwd path rendered.document
    | none => { outcome with output := outcome.output ++ rendered.document }
  let directory := Path.directory (target.getD input)
  rendered.artifacts.foldl
    (fun o artifact => o.write cwd (Path.child directory artifact.fileName) artifact.contents)
    written

def deliveryMessages (input : String) (target : Option String) (rendered : Rendered) :
    List String :=
  rendered.warnings.map (fun warning => "Warning: " ++ input ++ ": " ++ warning) ++
    target.toList.map fun path => "Wrote " ++ path

def buildFile (plan : Plan) (cwd : Location) (outcome : Outcome) (argument : String) : Outcome :=
  if outcome.error.isSome then outcome
  else match readInput outcome.tree cwd argument with
    | .error error => { outcome with error := some error }
    | .ok (input, quiz) =>
      match render plan.format (plan.options input) quiz with
      | .error error => { outcome with error := some (.render error) }
      | .ok rendered =>
        let target := plan.target? input
        (outcome.deliver cwd input target rendered).say (deliveryMessages input target rendered)

def build (session : Session) (arguments : BuildArguments) : Outcome :=
  match plan session arguments with
  | .error error => { tree := session.tree, error := some error }
  | .ok plan => arguments.inputs.foldl (buildFile plan session.cwd) { tree := session.tree }

end QuizPress.Command
