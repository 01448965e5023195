import QuizPress.Quiz.Node
import QuizPress.Xml.Escape

/-! A quiz as a document from which it can be read again. -/
namespace QuizPress.Render.Source
open Quiz Xml

def attributes : Attributes → String :=
  writeAttributes (escapeWith markedChar)

def bag (name : String) (values : Attributes) : String :=
  "  <" ++ name ++ attributes values ++ "/>\n"

def course (c : Course) : String :=
  if c.isEmpty then "" else bag "course" [("name", c.name), ("code", c.code), ("url", c.url)]

def indexEntry (entry : IndexEntry) : String :=
  bag "quizlistitem" [("title", entry.title), ("url", entry.url)]

def discussion (d : Discussion) : String :=
  "  <discussion" ++ attributes [("heading", d.heading)] ++ ">" ++ cdata d.body ++
    "</discussion>\n"

def item (i : Item) : String :=
  "      <item" ++ attributes [("expect", toString i.expect)] ++ ">\n" ++
    "        <text>" ++ cdata i.text ++ "</text>\n" ++
    (if i.response.isEmpty then ""
      else "        <response>" ++ cdata i.response ++ "</response>\n") ++
    "      </item>\n"

def choiceOpening (c : Choice) : String :=
  "    <choice" ++ attributes [("type", c.mode.name), ("cols", toString c.columns.val)] ++ ">\n"

def choiceClosing : String := "    </choice>\n"

/-- A tag that is not there is left out; the feedback is always written. -/
def answer (a : Answer) : String :=
  "    <answer" ++ attributes [("value", a.value)] ++ ">\n" ++
    (match a.tag with
      | some tag => "      <tag>" ++ cdata tag ++ "</tag>\n"
      | none => "") ++
    "      <when_right>" ++ cdata a.whenRight ++ "</when_right>\n" ++
    "      <when_wrong>" ++ cdata a.whenWrong ++ "</when_wrong>\n" ++
    "    </answer>\n"

def questionOpening (q : Question) : String :=
  "  <question>\n" ++
    "    <text>" ++ cdata q.text ++ "</text>\n"

def questionClosing : String := "  </question>\n"

def head (quiz : Quiz) : String :=
  "<?xml version=\"1.0\" encoding=\"UTF-8\"?>\n" ++
    "<quiz" ++ attributes [("title", quiz.title), ("breadcrumb", quiz.breadcrumb),
      ("src", quiz.source)] ++ ">\n" ++
    course quiz.course ++
    String.join (quiz.metas.map (bag "meta")) ++
    String.join (quiz.links.map (bag "link")) ++
    String.join (quiz.index.map indexEntry)

/-- What is written on the way through a quiz, each time behind what is there already. -/
def writing : Methods String where
  discussion _ d out := out ++ discussion d
  question _ q walk out := walk (out ++ questionOpening q) ++ questionClosing
  choice c walk out := walk (out ++ choiceOpening c) ++ choiceClosing
  item _ i _ out := out ++ item i
  answer a out := out ++ answer a

def document (quiz : Quiz) : String :=
  writing.visit (.quiz quiz) (writing.walkDiscussions quiz (head quiz)) ++ "</quiz>\n"

end QuizPress.Render.Source
