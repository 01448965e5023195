import QuizPress.Text.WordChar

/-! Texts in which names of environment variables stand for their values. -/
namespace QuizPress.Config
open Text

abbrev Environment := List (String × String)

/-- The value of a variable. In the environment a name, an equals sign and a value are one text, so
that what is looked for may be more of it than the name. Nothing has the empty name. -/
def Environment.value? (environment : Environment) (name : String) : Option String :=
  if name.isEmpty then none
  else environment.findSome? fun (key, value) =>
    let sought := (name ++ "=").toList
    let text := (key ++ "=" ++ value).toList
    if sought.isPrefixOf text then some (.ofList (text.drop sought.length)) else none

def isVariableChar (c : Char) : Bool := c == '_' || isAlphanumeric c

def splitAtMark : List Char → List Char × Option (List Char)
  | [] => ([], none)
  | ':' :: '-' :: cs => ([], some cs)
  | c :: cs =>
    let (name, default) := splitAtMark cs
    (c :: name, default)

/-- A name and its default. With the mark at its start, all is the name. -/
def splitDefault (cs : List Char) : List Char × Option (List Char) :=
  match splitAtMark cs with
  | ([], some _) => (cs, none)
  | split => split

/-- The value of a variable, or the default if there is no such variable; without both, the name
that has no value. -/
def valueOf (environment : Environment) (name : List Char) (default : Option (List Char)) :
    Except String (List Char) :=
  match environment.value? (.ofList name), default with
  | some value, _ => .ok value.toList
  | none, some text => .ok text
  | none, none => .error (.ofList name)

/-- Replaces the variables of a text. Two dollar signs stand for one, and one that begins no name
stands for itself, as does one before a brace that nothing closes. -/
def expandChars (environment : Environment) (cs : List Char) : Except String (List Char) :=
  match cs with
  | [] => .ok []
  | '$' :: '$' :: cs => (expandChars environment cs).map ('$' :: ·)
  | '$' :: '\x7b' :: cs =>
    match h : cs.dropWhile (· != '\x7d') with
    | [] => (expandChars environment cs).map fun text => '$' :: '\x7b' :: text
    | _ :: rest => do
      have : rest.length < cs.length := by
        have := (List.dropWhile_suffix (· != '\x7d') (l := cs)).length_le
        rw [h] at this
        exact this
      let (name, default) := splitDefault (cs.takeWhile (· != '\x7d'))
      let value ← valueOf environment name default
      return value ++ (← expandChars environment rest)
  | '$' :: cs =>
    if (cs.takeWhile isVariableChar).isEmpty then (expandChars environment cs).map ('$' :: ·)
    else do
      have := (List.dropWhile_suffix isVariableChar (l := cs)).length_le
      let value ← valueOf environment (cs.takeWhile isVariableChar) none
      return value ++ (← expandChars environment (cs.dropWhile isVariableChar))
  | c :: cs => (expandChars environment cs).map (c :: ·)
termination_by cs.length
decreasing_by all_goals simp only [List.length_cons]; omega

def expand (environment : Environment) (text : String) : Except String String :=
  (expandChars environment text.toList).map .ofList

end QuizPress.Config
