import QuizPress.Quiz.Basic
import QuizPress.Quiz.Error
import QuizPress.Quiz.Vocabulary
import QuizPress.Text.Blank
import QuizPress.Text.Numeral
import QuizPress.Xml.Escape
import QuizPress.Xml.Reader
import QuizPress.Xml.Reference

/-! A quiz built from the events of its document. -/
namespace QuizPress.Quiz
open Text Xml

inductive Open where
  | discussion (discussion : Discussion)
  | question (text : String) (body : Option AnswerBody)
  | choice (choice : Choice)
  | item (item : Item)
  | answer (answer : Answer)
deriving DecidableEq, Repr

def Open.element : Open → Element
  | discussion _ => .discussion
  | question _ _ => .question
  | choice _ => .choice
  | item _ => .item
  | answer _ => .answer

structure InlineTag where
  name : String
  tag : String
deriving DecidableEq, Repr

structure Scope where
  inlineTag : Option InlineTag := none
  text : String := ""
deriving DecidableEq, Repr, Inhabited

/-- A quiz under construction, with its open parts and the scopes of its open elements. The
innermost comes first. -/
structure Builder where
  quiz : Option Quiz := none
  nodes : List Open := []
  scopes : List Scope := []
deriving DecidableEq, Repr, Inhabited

namespace Builder

/-- Adds characters to the innermost scope; outside all elements they are dropped. -/
def characters (b : Builder) (text : String) : Builder :=
  match b.scopes with
  | [] => b
  | scope :: outer => { b with scopes := { scope with text := scope.text ++ text } :: outer }

def questionNumber (b : Builder) : Nat :=
  (b.quiz.elim 0 (·.questions.length)) + 1

def misplaced (element : Element) (nodes : List Open) : ParseError :=
  .misplaced element (nodes.head?.map Open.element)

def mapQuiz (f : Quiz → Quiz) (b : Builder) : Builder :=
  { b with quiz := b.quiz.map f }

def pushNode (b : Builder) (node : Open) : Builder :=
  { b with nodes := node :: b.nodes }

/-- The breadcrumb has three spellings, and the first of them that is there counts. -/
def breadcrumb (attributes : Attributes) : String :=
  (attributes.value? "breadcrumb" <|> attributes.value? "bread_crumb" <|>
    attributes.value? "breadCrumb").getD ""

/-- The columns that an attribute asks for; whatever is no positive count asks for one. -/
def columns (value : Option String) : Columns :=
  ((value.bind fun v => count? (trim v)).bind Columns.ofNat?).getD .one

def openSection (b : Builder) (element : Element) (node : Open) : Except ParseError Builder :=
  if b.quiz.isNone then .error .missingRoot
  else match b.nodes with
    | [] => .ok (b.pushNode node)
    | nodes => .error (misplaced element nodes)

def openBody (b : Builder) (element : Element) (node : Open) : Except ParseError Builder :=
  match b.nodes with
  | .question _ (some _) :: _ => .error (.duplicateAnswerBody b.questionNumber)
  | .question _ none :: _ => .ok (b.pushNode node)
  | nodes => .error (misplaced element nodes)

def openItem (b : Builder) (item : Item) : Except ParseError Builder :=
  match b.nodes with
  | .choice choice :: _ =>
    if Choice.maxItems ≤ choice.items.length then .error (.tooManyItems b.questionNumber)
    else .ok (b.pushNode (.item item))
  | nodes => .error (misplaced .item nodes)

def openElement (b : Builder) (element : Element) (attributes : Attributes) :
    Except ParseError Builder :=
  match element with
  | .quiz =>
    if b.quiz.isSome then .error (.misplaced .quiz none)
    else .ok { b with quiz := some {
      title := attributes.valueD "title" ""
      breadcrumb := breadcrumb attributes
      source := attributes.valueD "src" "" } }
  | .metaData => .ok (b.mapQuiz fun q => { q with metas := q.metas ++ [attributes] })
  | .link => .ok (b.mapQuiz fun q => { q with links := q.links ++ [attributes] })
  | .course => .ok (b.mapQuiz fun q => { q with course := {
      name := attributes.valueD "name" ""
      code := attributes.valueD "code" ""
      url := attributes.valueD "url" "" } })
  | .quizListItem => .ok (b.mapQuiz fun q => { q with index := q.index ++ [{
      title := attributes.valueD "title" ""
      url := attributes.valueD "url" "" }] })
  | .discussion =>
    b.openSection element (.discussion { heading := attributes.valueD "heading" "Discussion" })
  | .question => b.openSection element (.question "" none)
  | .choice =>
    b.openBody element (.choice {
      mode := .ofName (attributes.valueD "type" "single")
      columns := columns (attributes.value? "cols") })
  | .answer => b.openBody element (.answer { value := attributes.valueD "value" "" })
  | .item => b.openItem { expect := attributes.value? "expect" == some "true" }
  | .text | .tag | .response | .whenRight | .whenWrong => .ok b

/-- A text element gives its text to the innermost open part, if that part takes it. -/
def takeText (element : Element) (text : String) : Open → Open
  | .question old body => .question (if element = .text then text else old) body
  | .discussion d => .discussion (if element = .text then { d with body := text } else d)
  | .item i =>
    .item (match element with
      | .text => { i with text := text }
      | .response => { i with response := text }
      | _ => i)
  | .answer a =>
    .answer (match element with
      | .tag => { a with tag := if text.isEmpty then none else some text }
      | .whenRight => { a with whenRight := text }
      | .whenWrong => { a with whenWrong := text }
      | _ => a)
  | .choice c => .choice c

def giveBody (b : Builder) (element : Element) (body : AnswerBody) (outer : List Open) :
    Except ParseError Builder :=
  match outer with
  | .question text _ :: outer => .ok { b with nodes := .question text (some body) :: outer }
  | outer => .error (misplaced element outer)

def giveSection (b : Builder) (outer : List Open) (f : Quiz → Quiz) : Except ParseError Builder :=
  match b.quiz with
  | some q => .ok { b with quiz := some (f q), nodes := outer }
  | none => .error .missingRoot

/-- The end tag of an element that has a meaning; `text` is its own text without the blanks
around it. -/
def closeElement (b : Builder) (element : Element) (text : String) : Except ParseError Builder :=
  match element with
  | .quiz | .metaData | .link | .course | .quizListItem => .ok b
  | .discussion =>
    match b.nodes with
    | .discussion d :: outer =>
      b.giveSection outer fun q => { q with
        discussions := q.discussions ++ [if d.body.isEmpty then { d with body := text } else d] }
    | _ => .error (.misplaced .discussion none)
  | .question =>
    match b.nodes with
    | .question text (some body) :: outer =>
      b.giveSection outer fun q => { q with questions := q.questions ++ [⟨text, body⟩] }
    | .question _ none :: _ => .error (.missingAnswerBody b.questionNumber)
    | _ => .error (.misplaced .question none)
  | .choice | .answer =>
    match b.nodes with
    | .choice c :: outer => b.giveBody element (.choice c) outer
    | .answer a :: outer => b.giveBody element (.answer a) outer
    | nodes => .error (misplaced element nodes)
  | .item =>
    match b.nodes with
    | .item i :: .choice c :: outer =>
      .ok { b with nodes := .choice { c with items := c.items ++ [i] } :: outer }
    | _ :: outer => .error (misplaced .item outer)
    | [] => .error (misplaced .item [])
  | .text | .tag | .response | .whenRight | .whenWrong =>
    match b.nodes with
    | node :: outer => .ok { b with nodes := takeText element text node :: outer }
    | [] => .ok b

def inlineAttributes : Attributes → String :=
  writeAttributes (escapeWith quotedChar)

def start (b : Builder) (name : String) (attributes : Attributes) : Except ParseError Builder :=
  match Element.ofName? name with
  | none =>
    let tag := "<" ++ name ++ inlineAttributes attributes ++ ">"
    .ok { b with scopes := ⟨some ⟨name, tag⟩, ""⟩ :: b.scopes }
  | some element => ({ b with scopes := {} :: b.scopes } : Builder).openElement element attributes

/-- The end tag of any element. What has no meaning becomes characters of the scope around it. -/
def close (b : Builder) (name : String) : Except ParseError Builder :=
  let scope := b.scopes.headD {}
  let b := { b with scopes := b.scopes.tail }
  match Element.ofName? name with
  | none =>
    match scope.inlineTag with
    | some inlineTag =>
      .ok (b.characters (inlineTag.tag ++ scope.text ++ "</" ++ inlineTag.name ++ ">"))
    | none => .ok b
  | some element => b.closeElement element (trim scope.text)

def empty (b : Builder) (name : String) (attributes : Attributes) : Except ParseError Builder :=
  match Element.ofName? name with
  | none => .ok (b.characters ("<" ++ name ++ inlineAttributes attributes ++ "/>"))
  | some _ => do (← b.start name attributes).close name

def step (b : Builder) : Event → Except ParseError Builder
  | .start name attributes => b.start name attributes
  | .empty name attributes => b.empty name attributes
  | .close name => b.close name
  | .text content => .ok (b.characters content)
  | .reference name => .ok (b.characters (.ofList (expansion name.toList)))

def finish (b : Builder) : Except ParseError Quiz :=
  match b.nodes, b.quiz with
  | node :: _, _ => .error (.unexpectedEnd node.element)
  | [], some quiz => .ok quiz
  | [], none => .error .missingRoot

def run (b : Builder) (events : List Event) : Except ParseError Builder :=
  events.foldlM step b

end Builder

/-- The quiz that a reading says; a fault counts once all events before it are taken. -/
def ofReading (reading : Reading) : Except ParseError Quiz := do
  let b ← Builder.run {} reading.events
  match reading.fault with
  | some fault => .error (.xml fault)
  | none => b.finish

def ofGlyphs (gs : List Glyph) : Except ParseError Quiz :=
  ofReading (Xml.read gs)

def parse (document : String) : Except ParseError Quiz :=
  ofGlyphs (glyphs document)

def parseOctets (octets : List UInt8) : Except ParseError Quiz :=
  ofGlyphs (decode octets)

end QuizPress.Quiz
