/-! Paths as they are written: names between slashes. -/
namespace QuizPress.Files.Path

def splitSlash : List Char → List (List Char)
  | [] => [[]]
  | c :: cs =>
    if c = '/' then [] :: splitSlash cs
    else match splitSlash cs with
      | part :: parts => (c :: part) :: parts
      | [] => [[c]]

def parts (path : String) : List String :=
  (splitSlash path.toList).map .ofList

def join (parts : List String) : String :=
  "/".intercalate parts

def isIdle (part : String) : Bool := part == "" || part == "."

def withoutIdle (parts : List String) : List String :=
  (parts.reverse.dropWhile isIdle).reverse

def isAbsolute (path : String) : Bool := path.toList.head? == some '/'

def fileName? (path : String) : Option String :=
  (withoutIdle (parts path)).getLast?.filter (· != "..")

/-- The stem and the extension of a name; a dot at the start begins no extension. -/
def splitExtension (name : String) : String × Option String :=
  let back := name.toList.reverse
  match back.dropWhile (· != '.') with
  | _ :: c :: cs => (.ofList (c :: cs).reverse, some (.ofList (back.takeWhile (· != '.')).reverse))
  | _ => (name, none)

def extension? (path : String) : Option String :=
  (fileName? path).bind fun name => (splitExtension name).2

def stem? (path : String) : Option String :=
  (fileName? path).map fun name => (splitExtension name).1

/-- A name with another extension. The old one goes first; if two dots are left then, that is no
name any more, and it gets no extension. -/
def renamed (name extension : String) : String :=
  match splitExtension name with
  | (".", some _) => ".."
  | (stem, _) => stem ++ "." ++ extension

/-- The path with another extension. A path that ends with no name stays as it is. -/
def withExtension (path extension : String) : String :=
  match fileName? path with
  | none => path
  | some name => join ((withoutIdle (parts path)).dropLast ++ [renamed name extension])

/-- The directory of a path as it is written; there is none above the root or an empty path. -/
def parent? (path : String) : Option String :=
  match withoutIdle (parts path) with
  | [] => if path.isEmpty || isAbsolute path then none else some ""
  | named =>
    let above := named.dropLast
    match withoutIdle above, above with
    | [], [] => some ""
    | [], first :: _ => some (if first = "" then "/" else first)
    | above, _ => some (join above)

def ancestors (path : String) : List String :=
  go path.length path
where
  go : Nat → String → List String
    | 0, path => [path]
    | n + 1, path => path :: (match parent? path with | some parent => go n parent | none => [])

def directory (path : String) : String :=
  match parent? path with
  | some parent => if parent.isEmpty then "." else parent
  | none => "."

def child (directory name : String) : String :=
  if directory.toList.getLast? == some '/' then directory ++ name else directory ++ "/" ++ name

end QuizPress.Files.Path
