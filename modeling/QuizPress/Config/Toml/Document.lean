import QuizPress.Config.Toml.Quoted
import QuizPress.Config.Toml.Scalar
import QuizPress.Config.Toml.Value

/-! TOML documents: keys, values and headers, line by line. -/
namespace QuizPress.Config.Toml

def dropGaps (cs : List Char) : List Char := cs.dropWhile isGap

def commentEnd? : List Char → Option (List Char)
  | [] => some []
  | c :: cs =>
    if (newline? (c :: cs)).isSome then some (c :: cs)
    else if isPlain c then commentEnd? cs
    else none

def lineEnd? (cs : List Char) : Option (List Char) := do
  let cs ← match dropGaps cs with
    | '#' :: cs => commentEnd? cs
    | cs => some cs
  if cs.isEmpty then some [] else newline? cs

def dropBlanks? (cs : List Char) : Option (List Char) :=
  match dropGaps cs with
  | [] => some []
  | c :: rest =>
    if c = '#' ∨ (newline? (c :: rest)).isSome then
      match lineEnd? (c :: rest) with
      | some rest => if rest.length < cs.length then dropBlanks? rest else none
      | none => none
    else some (c :: rest)
termination_by cs.length

def isBare (c : Char) : Bool := c.isAlphanum || c == '_' || c == '-'

def keyPart? (cs : List Char) : Option (String × List Char) :=
  match cs with
  | '"' :: '"' :: '"' :: _ => none
  | '\'' :: '\'' :: '\'' :: _ => none
  | '"' :: _ => string? cs
  | '\'' :: _ => string? cs
  | cs =>
    let name := cs.takeWhile isBare
    if name.isEmpty then none else some (.ofList name, cs.dropWhile isBare)

def keyParts? (cs : List Char) : Option (List String × String × List Char) :=
  match keyPart? cs with
  | none => none
  | some (name, rest) =>
    match dropGaps rest with
    | '.' :: rest =>
      let rest := dropGaps rest
      if rest.length < cs.length then
        (keyParts? rest).map fun (path, last, rest) => (name :: path, last, rest)
      else none
    | rest => some ([], name, rest)
termination_by cs.length

/-- Values nest no deeper than this, and no key has more parts. -/
def maxDepth : Nat := 80

def key? (cs : List Char) : Option (List String × String × List Char) :=
  (keyParts? cs).filter fun (path, _) => path.length < maxDepth

def endsScalar (c : Char) : Bool :=
  isGap c || c == '\n' || c == '\r' || c == ',' || c == '[' || c == ']' || c == '\x7b' ||
    c == '\x7d' || c == '#' || c == '=' || c == '"' || c == '\''

/-- A value without quotes. A date and a time may have one space between them. -/
def unquoted? (cs : List Char) : Option (Value × List Char) :=
  let word := cs.takeWhile (!endsScalar ·)
  let rest := cs.dropWhile (!endsScalar ·)
  match date? word, rest with
  | some [], ' ' :: c :: more =>
    if c.isDigit then
      (scalar? (word ++ ' ' :: (c :: more).takeWhile (!endsScalar ·))).map
        (·, (c :: more).dropWhile (!endsScalar ·))
    else (scalar? word).map (·, rest)
  | _, _ => (scalar? word).map (·, rest)

def values? (value? : List Char → Option (Value × List Char)) (cs : List Char) :
    Option (List Value × List Char) :=
  match dropBlanks? cs with
  | some (']' :: rest) => some ([], rest)
  | some start => do
    let (value, rest) ← value? start
    match ← dropBlanks? rest with
    | ',' :: rest =>
      if rest.length < cs.length then
        (values? value? rest).map fun (others, rest) => (value :: others, rest)
      else none
    | ']' :: rest => some ([value], rest)
    | _ => none
  | none => none
termination_by cs.length

/-- A key with its value: the path, the last name, the value, and what follows. What may stand
around the equals sign is dropped by `skip?`. -/
def assignment? (skip? : List Char → Option (List Char))
    (value? : List Char → Option (Value × List Char)) (cs : List Char) :
    Option ((List String × String × Value) × List Char) := do
  let (path, name, rest) ← key? cs
  let rest ← expect? '=' (← skip? rest)
  let (value, rest) ← value? (← skip? rest)
  return ((path, name, value), rest)

def entries? (value? : List Char → Option (Value × List Char)) (table : Table) (cs : List Char) :
    Option (Table × List Char) :=
  match dropBlanks? cs with
  | some ('\x7d' :: rest) => some (table, rest)
  | some start => do
    let ((path, name, value), rest) ← assignment? dropBlanks? value? start
    let table ← table.insert? path name value
    match ← dropBlanks? rest with
    | ',' :: rest => if rest.length < cs.length then entries? value? table rest else none
    | '\x7d' :: rest => some (table, rest)
    | _ => none
  | none => none
termination_by cs.length

/-- A value in which arrays and tables stand in one another at most `depth` times. -/
def value? : (depth : Nat) → List Char → Option (Value × List Char)
  | depth + 1, '[' :: cs => (values? (value? depth) cs).map fun (values, rest) => (.list values, rest)
  | depth + 1, '\x7b' :: cs =>
    (entries? (value? depth) [] cs).map fun (table, rest) => (.table .inline table, rest)
  | _, '"' :: cs => (string? ('"' :: cs)).map fun (text, rest) => (.string text, rest)
  | _, '\'' :: cs => (string? ('\'' :: cs)).map fun (text, rest) => (.string text, rest)
  | _, cs => unquoted? cs

/-- The tables read so far, and the path of the last header. -/
structure Progress where
  root : Table := []
  current : List String := []

def header? (cs : List Char) : Option ((List String × String) × List Char) := do
  let (path, name, rest) ← key? (dropGaps cs)
  let rest ← expect? ']' (dropGaps rest)
  return ((path, name), rest)

def line? (progress : Progress) (cs : List Char) : Option (Progress × List Char) :=
  match cs with
  | '[' :: '[' :: cs => do
    let ((path, name), rest) ← header? cs
    let rest ← expect? ']' rest
    let root ← progress.root.modify? (Table.append? name) path
    return (⟨root, path ++ [name]⟩, rest)
  | '[' :: cs => do
    let ((path, name), rest) ← header? cs
    let root ← progress.root.modify? (Table.declare? name) path
    return (⟨root, path ++ [name]⟩, rest)
  | cs => do
    let ((path, name, value), rest) ← assignment? (some ∘ dropGaps) (value? maxDepth) cs
    let root ← progress.root.modify? (Table.insert? path name value) progress.current
    return ({ progress with root := root }, rest)

def lines? (progress : Progress) (cs : List Char) : Option Table :=
  match dropBlanks? cs with
  | none => none
  | some [] => some progress.root
  | some start =>
    match line? progress start with
    | none => none
    | some (progress, rest) =>
      match lineEnd? rest with
      | some rest => if rest.length < cs.length then lines? progress rest else none
      | none => none
termination_by cs.length

/-- The table of a whole document; a byte order mark before it is left out. -/
def read? (document : String) : Option Table :=
  match document.toList with
  | '\uFEFF' :: cs => lines? {} cs
  | cs => lines? {} cs

end QuizPress.Config.Toml
