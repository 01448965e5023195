import QuizPress.Command.Build
import QuizPress.Command.Check
import QuizPress.Config.Load
import QuizPress.Files.Path
import QuizPress.Render.Page.Index
import QuizPress.Text.Numeral

/-! The arguments of the command line. What is said about their misuse has words of its own here. -/
namespace QuizPress.Command
open Files

inductive Request where
  | build (arguments : BuildArguments)
  | check (inputs : List String)
deriving DecidableEq, Repr

inductive UsageError where
  | noCommand
  | unknownCommand (name : String)
  | unknownOption (name : String)
  | repeated (option : String)
  | noValue (option : String)
  | invalidCount (value : String)
  | noInputs
deriving DecidableEq, Repr

def UsageError.message : UsageError → String
  | noCommand => "a command is needed: build or check"
  | unknownCommand name => "unknown command '" ++ name ++ "'"
  | unknownOption name => "unexpected argument '" ++ name ++ "'"
  | repeated option => "the argument '" ++ option ++ "' cannot be used multiple times"
  | noValue option => "a value is required for '" ++ option ++ "'"
  | invalidCount value => "invalid value '" ++ value ++ "' for '--answer-slots'"
  | noInputs => "quiz files are needed"

def longName? : Char → Option String
  | 'f' => some "--format"
  | 'l' => some "--layout"
  | 'u' => some "--url"
  | 'o' => some "--output"
  | 'c' => some "--config"
  | 'v' => some "--verbose"
  | _ => none

/-- The value behind an equals sign, or all that is there; nothing is no value. -/
def attachedValue : List Char → Option String
  | [] => none
  | '=' :: cs => some (.ofList cs)
  | cs => some (.ofList cs)

def splitOption (argument : String) : Option (String × Option String) :=
  match argument.toList with
  | '-' :: '-' :: cs =>
    some ("--" ++ .ofList (cs.takeWhile (· != '=')), attachedValue (cs.dropWhile (· != '=')))
  | '-' :: c :: cs => some ((longName? c).getD argument, attachedValue cs)
  | _ => none

def setOnce (option value : String) (old : Option String) : Except UsageError (Option String) :=
  if old.isSome then .error (.repeated option) else .ok (some value)

def setOption (arguments : BuildArguments) (option value : String) :
    Except UsageError BuildArguments := do
  match option with
  | "--format" => return { arguments with format := ← setOnce option value arguments.format }
  | "--layout" => return { arguments with layout := ← setOnce option value arguments.layout }
  | "--url" => return { arguments with url := ← setOnce option value arguments.url }
  | "--output" => return { arguments with output := ← setOnce option value arguments.output }
  | "--config" => return { arguments with config := ← setOnce option value arguments.config }
  | "--answer-slots" =>
    if arguments.answerSlots.isSome then .error (.repeated option)
    else match Text.count? value with
      | some n => return { arguments with answerSlots := some n }
      | none => .error (.invalidCount value)
  | _ => .error (.unknownOption option)

def takesValue (building : Bool) (option : String) : Bool :=
  building && ["--format", "--layout", "--url", "--output", "--config", "--answer-slots"].contains
    option

/-- Reads the arguments after the name of a command. After two dashes all of them are inputs. -/
def readArguments (building : Bool) (arguments : BuildArguments) :
    List String → Except UsageError BuildArguments
  | [] => .ok arguments
  | "--" :: inputs => .ok { arguments with inputs := arguments.inputs ++ inputs }
  | argument :: others =>
    match splitOption argument with
    | none => readArguments building { arguments with inputs := arguments.inputs ++ [argument] } others
    | some (option, value) =>
      if option = "--verbose" then readArguments building arguments others
      else if takesValue building option then
        match value, others with
        | some value, others => do readArguments building (← setOption arguments option value) others
        | none, value :: others =>
          do readArguments building (← setOption arguments option value) others
        | none, [] => .error (.noValue option)
      else .error (.unknownOption argument)

def Request.ofArguments (arguments : List String) : Except UsageError Request := do
  let (building, others) ← match arguments with
    | "build" :: others => .ok (true, others)
    | "check" :: others => .ok (false, others)
    | name :: _ => .error (.unknownCommand name)
    | [] => .error .noCommand
  let arguments ← readArguments building { inputs := [] } others
  if arguments.inputs.isEmpty then .error .noInputs
  else return if building then .build arguments else .check arguments.inputs

def Request.run (session : Session) : Request → Outcome
  | build arguments => Command.build session arguments
  | check inputs => Command.check session inputs

def BuildArguments.pathsOf (arguments : BuildArguments) (argument : String) : List String :=
  let input := inputPath argument
  let target := arguments.output.getD (Path.withExtension input "html")
  [input, target, Path.child (Path.directory target) Render.Page.titlesFile]

/-- All files that a request can read or write: no other file makes a difference to it. -/
def Request.paths (cwd : Location) : Request → List String
  | build arguments =>
    arguments.config.toList ++ arguments.inputs.flatMap arguments.pathsOf ++
      (List.range (cwd.length + 1)).map fun n => "/" ++ Path.join (cwd.take n ++ [Config.fileName])
  | check inputs => inputs.map inputPath

end QuizPress.Command
