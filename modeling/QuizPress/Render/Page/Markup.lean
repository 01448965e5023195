import QuizPress.Xml.Escape

/-! The text of a page: elements, and strings made fit for the places where they stand. -/
namespace QuizPress.Render.Page
open Xml

def plain (s : String) : String :=
  escapeWith textChar s

def attributes (values : List (String × String)) : String :=
  writeAttributes plain values

def element (name : String) (values : List (String × String)) (content : String) : String :=
  "<" ++ name ++ attributes values ++ ">" ++ content ++ "</" ++ name ++ ">"

def opening (name : String) (values : List (String × String)) : String :=
  "<" ++ name ++ attributes values ++ ">"

def closing (name : String) : String := "</" ++ name ++ ">"

def lone (name : String) (values : List (String × String)) : String :=
  "<" ++ name ++ attributes values ++ ">"

def slashed (name : String) (values : List (String × String)) : String :=
  "<" ++ name ++ attributes values ++ "/>"

/-- A script writes these characters by an escape. -/
def scriptChar : Char → List Char
  | '\\' => ['\\', '\\']
  | '\'' => ['\\', '\'']
  | '"' => ['\\', '"']
  | '\n' => ['\\', 'n']
  | '\r' => ['\\', 'r']
  | '<' => ['\\', 'x', '3', 'c']
  | c => [c]

def scriptText (s : String) : String :=
  escapeWith scriptChar s

def commentChar : Char → List Char
  | '-' => ['-', ' ']
  | c => [c]

/-- A text that cannot end the comment it stands in. -/
def commentText (s : String) : String :=
  escapeWith commentChar s

end QuizPress.Render.Page
