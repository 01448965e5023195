import QuizPress.Command.Arguments
import QuizPress.Files.Tree
import QuizPress.Text.Glyph

/-! The program: it takes what a request can touch from the disk, runs the request, and puts the
changes back. -/
namespace QuizPress.Main
open Files Command

def pathOf (location : Location) : String :=
  "/" ++ Path.join location

/-- Adds what is on the disk at a location. What is there and cannot be read is a closed file. -/
def probe (tree : Tree) (location : Location) : IO Tree := do
  let path ← try IO.FS.realPath (pathOf location) catch _ => return tree
  if ← path.isDir then return tree.plant location .directory
  try
    return tree.plant location (.file (← IO.FS.readBinFile path).toList)
  catch _ => return (tree.plant location (.file [])).close location

def gather (cwd : Location) (tree : Tree) (path : String) : IO Tree := do
  let mut tree := tree
  let mut location := if Path.isAbsolute path then [] else cwd
  for part in Path.parts path do
    if part == ".." then
      location := location.dropLast
    else if !Path.isIdle part then
      location := location ++ [part]
      if (tree.entry? location).isNone then
        tree ← probe tree location
  return tree

def environment : IO Config.Environment := do
  let octets ← try IO.FS.readBinFile "/proc/self/environ" catch _ => pure .empty
  let text := Text.lossy (Text.decode octets.toList)
  return (text.splitOn "\x00").filterMap fun entry =>
    match entry.splitOn "=" with
    | name :: value => if name.isEmpty then none else some (name, "=".intercalate value)
    | [] => none

def store (old new : Tree) : IO Unit := do
  for (location, entry) in new.entries do
    if old.entry? location != some entry then
      match entry with
      | .directory => IO.FS.createDirAll (pathOf location)
      | .file contents => IO.FS.writeBinFile (pathOf location) ⟨contents.toArray⟩

def perform (request : Request) : IO UInt32 := do
  let cwd := (Path.parts (← IO.currentDir).toString).filter (!Path.isIdle ·)
  let start : Tree := ({ whole := true } : Tree).plant cwd .directory
  let tree ← (request.paths cwd).foldlM (gather cwd) start
  let outcome := request.run { tree, cwd, environment := ← environment }
  store tree outcome.tree
  IO.print outcome.output
  for message in outcome.report do
    IO.eprintln message
  return UInt32.ofNat outcome.exitCode

end QuizPress.Main

def main (arguments : List String) : IO UInt32 := do
  match QuizPress.Command.Request.ofArguments arguments with
  | .ok request => QuizPress.Main.perform request
  | .error error =>
    IO.eprintln ("error: " ++ error.message)
    return 2
