import QuizPress.Files.Error
import QuizPress.Files.Path

/-! A tree of directories and files, and what it means to read and to write by a path. There are no links, all
directories are open, and a device neither fails nor is full. -/
namespace QuizPress.Files

abbrev Location := List String

inductive Entry where
  | directory
  | file (contents : List UInt8)
deriving DecidableEq, Repr

/-- What is below the root, each location once. Files that are closed may be neither read nor written.
The root of a whole tree is that of absolute paths, and nothing is above it. -/
structure Tree where
  entries : List (Location × Entry) := []
  closed : List Location := []
  whole : Bool := false
deriving DecidableEq, Repr, Inhabited

namespace Tree

/-- The place above the root of a tree that is not whole: a directory, of which nothing is known
but what is written there. -/
def aboveRoot : Location := [".."]

def top (tree : Tree) : Location := if tree.whole then [] else aboveRoot

def outer (tree : Tree) (location : Location) : Location :=
  if location = [] then tree.top
  else if location = aboveRoot then aboveRoot
  else location.dropLast

def entry? (tree : Tree) (location : Location) : Option Entry :=
  if location = [] ∨ location = aboveRoot then some .directory else tree.entries.lookup location

def put (tree : Tree) (location : Location) (entry : Entry) : Tree :=
  if (tree.entries.lookup location).isSome then
    { tree with entries := tree.entries.map fun e => if e.1 = location then (location, entry) else e }
  else { tree with entries := tree.entries ++ [(location, entry)] }

def plant (tree : Tree) (location : Location) (entry : Entry) : Tree :=
  let around := (List.range location.length).drop 1 |>.map location.take
  let tree := around.foldl (fun t l => if (t.entry? l).isSome then t else t.put l .directory) tree
  if location = [] then tree else tree.put location entry

def close (tree : Tree) (location : Location) : Tree :=
  { tree with closed := tree.closed ++ [location] }

def maxName : Nat := 255

def find (tree : Tree) (location : Location) (name : String) : Except FileError Entry :=
  if maxName < name.utf8ByteSize then .error .nameTooLong
  else match tree.entry? (location ++ [name]) with
    | some entry => .ok entry
    | none => .error .notFound

def enter (tree : Tree) (location : Location) (part : String) : Except FileError Location :=
  if Path.isIdle part then .ok location
  else if part = ".." then .ok (tree.outer location)
  else do
    match ← tree.find location part with
    | .directory => .ok (location ++ [part])
    | .file _ => .error .notDirectory

def walk (tree : Tree) (location : Location) (parts : List String) : Except FileError Location :=
  parts.foldlM tree.enter location

def pathBound : Nat := 4096

/-- A path from a working directory: the directory of its last part, and that part. No path is
empty or holds a NUL. -/
def locate (tree : Tree) (cwd : Location) (path : String) :
    Except FileError (Location × String) := do
  if path.toList.contains '\x00' then .error .nulInName
  else if path.isEmpty then .error .notFound
  else if pathBound ≤ path.utf8ByteSize then .error .nameTooLong
  else
    let parts := Path.parts path
    let location ← tree.walk (if Path.isAbsolute path then tree.top else cwd) parts.dropLast
    return (location, parts.getLast?.getD "")

def status (tree : Tree) (cwd : Location) (path : String) : Except FileError Entry := do
  let (location, last) ← tree.locate cwd path
  if Path.isIdle last || last == ".." then .ok .directory else tree.find location last

def isPresent (tree : Tree) (cwd : Location) (path : String) : Bool :=
  (tree.status cwd path).toOption.isSome

def isFile (tree : Tree) (cwd : Location) (path : String) : Bool :=
  match tree.status cwd path with
  | .ok (.file _) => true
  | _ => false

def isDirectory (tree : Tree) (cwd : Location) (path : String) : Bool :=
  match tree.status cwd path with
  | .ok .directory => true
  | _ => false

def readAt (tree : Tree) (location : Location) : Except FileError (List UInt8) :=
  match tree.entry? location with
  | none => .error .notFound
  | some .directory => .error .isDirectory
  | some (.file contents) => if location ∈ tree.closed then .error .notPermitted else .ok contents

def read (tree : Tree) (cwd : Location) (path : String) : Except FileError (List UInt8) := do
  let (location, last) ← tree.locate cwd path
  if Path.isIdle last || last == ".." then .error .isDirectory
  else if maxName < last.utf8ByteSize then .error .nameTooLong
  else tree.readAt (location ++ [last])

def withoutSlashes (path : String) : String :=
  let bare := (path.toList.reverse.dropWhile (· == '/')).reverse
  if bare.isEmpty && Path.isAbsolute path then "/" else .ofList bare

/-- Writes a file into a directory that is there. A slash at the end asks for a directory. -/
def write (tree : Tree) (cwd : Location) (path : String) (contents : List UInt8) :
    Except FileError Tree := do
  let (location, last) ← tree.locate cwd (withoutSlashes path)
  if Path.isIdle last || last == ".." || withoutSlashes path ≠ path then .error .isDirectory
  else match tree.find location last with
    | .ok .directory => .error .isDirectory
    | .ok (.file _) | .error .notFound =>
      if location ++ [last] ∈ tree.closed then .error .notPermitted
      else .ok (tree.put (location ++ [last]) (.file contents))
    | .error error => .error error

def makeDirectory (tree : Tree) (cwd : Location) (path : String) : Except FileError Tree := do
  let (location, last) ← tree.locate cwd (withoutSlashes path)
  if Path.isIdle last || last == ".." then .error .alreadyExists
  else match tree.find location last with
    | .ok _ => .error .alreadyExists
    | .error .notFound => .ok (tree.put (location ++ [last]) .directory)
    | .error error => .error error

def ensureDirectory (tree : Tree) (cwd : Location) (path : String) : Except FileError Tree :=
  match tree.makeDirectory cwd path with
  | .error .alreadyExists =>
    if tree.isDirectory cwd path then .ok tree else .error .alreadyExists
  | made => made

/-- Makes the first of some directories, each of which stands in the next one. -/
def ensureAll (tree : Tree) (cwd : Location) : List String → Except FileError Tree
  | [] => .ok tree
  | path :: above =>
    if path.isEmpty || (Path.parent? path).isNone then .ok tree
    else match tree.ensureDirectory cwd path with
      | .error .notFound => do (← tree.ensureAll cwd above).ensureDirectory cwd path
      | made => made

def save (tree : Tree) (cwd : Location) (path : String) (contents : List UInt8) :
    Except FileError Tree := do
  let tree ← tree.ensureAll cwd (((Path.parent? path).map Path.ancestors).getD [])
  tree.write cwd path contents

end Tree

end QuizPress.Files
