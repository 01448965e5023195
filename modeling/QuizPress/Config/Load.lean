import QuizPress.Config.Basic
import QuizPress.Files.Tree

/-! Settings loaded from a tree of files. -/
namespace QuizPress.Config
open Files

def fileName : String := "mq.toml"

/-- The settings file of a directory or of the nearest directory around it that has one. -/
def discover? (tree : Tree) (directory : Location) : Option Location :=
  (List.range (directory.length + 1)).reverse.findSome? fun n =>
    let location := directory.take n ++ [fileName]
    (tree.entry? location).map fun _ => location

/-- The settings of the file that a path names, or that is discovered; without a file, the
defaults. -/
def fromFile (tree : Tree) (cwd : Location) (environment : Environment) (path : Option String) :
    Except ConfigError Config :=
  match path with
  | some path =>
    if tree.isPresent cwd path then
      match tree.read cwd path with
      | .ok octets => ofOctets environment path octets
      | .error error => .error (.unreadable error)
    else .error (.notFound path)
  | none =>
    match discover? tree cwd with
    | some location =>
      match tree.readAt location with
      | .ok octets => ofOctets environment (Path.join location) octets
      | .error error => .error (.unreadable error)
    | none => .ok {}

def load (tree : Tree) (cwd : Location) (environment : Environment) (path : Option String)
    (overrides : Overrides) : Except ConfigError Config := do
  (← fromFile tree cwd environment path).settle overrides

end QuizPress.Config
