/-! The formats that a quiz is rendered in, and what a rendering is. -/
namespace QuizPress.Render

inductive Format where
  | html
  | xml
  | tex
  | text
deriving DecidableEq, Repr, Inhabited

def Format.default : Format := .html

inductive RenderError where
  | unknownFormat (name : String)
  | unknownLayout (name : String)
deriving DecidableEq, Repr

def RenderError.message : RenderError → String
  | unknownFormat name =>
    "Unknown output format '" ++ name ++ "' (expected one of: html, xml, tex, text)"
  | unknownLayout name => "Unknown page layout '" ++ name ++ "' (expected one of: standard, course)"

namespace Format

def name : Format → String
  | html => "html"
  | xml => "xml"
  | tex => "tex"
  | text => "text"

def fileExtension : Format → String
  | html => "html"
  | xml => "xml"
  | tex => "tex"
  | text => "txt"

/-- The format of a name in upper or lower case letters. -/
def ofName (name : String) : Except RenderError Format :=
  match name.toLower with
  | "html" => .ok html
  | "xml" => .ok xml
  | "tex" => .ok tex
  | "text" => .ok text
  | _ => .error (.unknownFormat name)

end Format

/-- What a rendering depends on besides the quiz. The base URL leads to the shared style sheet and
script, the quiz name to those of the quiz; the answer slots are those of the paper header. -/
structure Options where
  baseUrl : String := "/MathQuiz/"
  layout : String := "standard"
  quizName : String := "quiz"
  answerSlots : Nat := 4
deriving DecidableEq, Repr, Inhabited

structure Artifact where
  fileName : String
  contents : String
deriving DecidableEq, Repr

structure Rendered where
  document : String
  artifacts : List Artifact := []
  warnings : List String := []
deriving DecidableEq, Repr

end QuizPress.Render
