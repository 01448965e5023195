import QuizPress.Text.Numeral
import QuizPress.Xml.Attribute

/-! Quizzes: discussions to read, and questions with one answer body each. -/
namespace QuizPress.Quiz
open Text Xml

structure Course where
  name : String := ""
  code : String := ""
  url : String := ""
deriving DecidableEq, Repr, Inhabited

def Course.isEmpty (course : Course) : Bool :=
  course.name.isEmpty && course.code.isEmpty && course.url.isEmpty

structure IndexEntry where
  title : String := ""
  url : String := ""
deriving DecidableEq, Repr, Inhabited

structure Discussion where
  heading : String := "Discussion"
  body : String := ""
deriving DecidableEq, Repr, Inhabited

/-- How the items of a choice are selected. A mode of another name is kept with its name. -/
inductive ChoiceMode where
  | single
  | multiple
  | other (name : String)
deriving DecidableEq, Repr, Inhabited

namespace ChoiceMode

def ofName (name : String) : ChoiceMode :=
  if name = "single" then single
  else if name = "multiple" then multiple
  else other name

def name : ChoiceMode → String
  | single => "single"
  | multiple => "multiple"
  | other name => name

end ChoiceMode

structure Item where
  expect : Bool := false
  text : String := ""
  response : String := ""
deriving DecidableEq, Repr, Inhabited

/-- A number of columns: positive, and a count. -/
structure Columns where
  val : Nat
  pos : 0 < val
  lt_bound : val < countBound
deriving DecidableEq, Repr

namespace Columns

def one : Columns := ⟨1, by decide, by decide⟩

instance : Inhabited Columns := ⟨one⟩

def ofNat? (n : Nat) : Option Columns :=
  if h : 0 < n ∧ n < countBound then some ⟨n, h.1, h.2⟩ else none

end Columns

structure Choice where
  mode : ChoiceMode := .single
  columns : Columns := .one
  items : List Item := []
deriving DecidableEq, Repr, Inhabited

namespace Choice

def labels : List Char := "abcdefghijklmnopqrstuvwxyz".toList

def maxItems : Nat := 26

/-- The label of the item at a position counted from one. -/
def label? (index : Nat) : Option Char :=
  match index with
  | 0 => none
  | n + 1 => labels[n]?

def startsRow (choice : Choice) (index : Nat) : Bool :=
  (index - 1) % choice.columns.val == 0

def endsRow (choice : Choice) (index : Nat) : Bool :=
  index % choice.columns.val == 0 || index == choice.items.length

end Choice

/-- A question body answered by a text, which is compared with `value`. The tag is shown behind
the input field. -/
structure Answer where
  value : String := ""
  tag : Option String := none
  whenRight : String := ""
  whenWrong : String := ""
deriving DecidableEq, Repr, Inhabited

inductive AnswerBody where
  | choice (choice : Choice)
  | answer (answer : Answer)
deriving DecidableEq, Repr, Inhabited

structure Question where
  text : String := ""
  body : AnswerBody := .answer {}
deriving DecidableEq, Repr, Inhabited

end QuizPress.Quiz

namespace QuizPress

/-- A quiz. All its lists are in the order of the document. -/
structure Quiz where
  title : String := ""
  breadcrumb : String := ""
  source : String := ""
  course : Quiz.Course := {}
  metas : List Xml.Attributes := []
  links : List Xml.Attributes := []
  index : List Quiz.IndexEntry := []
  discussions : List Quiz.Discussion := []
  questions : List Quiz.Question := []
deriving DecidableEq, Repr, Inhabited

end QuizPress
