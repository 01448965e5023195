import QuizPress.Text.Glyph
import QuizPress.Xml.Attribute
import QuizPress.Xml.Fault
import QuizPress.Xml.Markup

/-! A document as a list of events, up to its end or to the first fault. -/
namespace QuizPress.Xml
open Text

/-- What a document says next. An empty-element tag is one event. -/
inductive Event where
  | start (name : String) (attributes : Attributes)
  | empty (name : String) (attributes : Attributes)
  | close (name : String)
  | text (content : String)
  | reference (name : String)
deriving DecidableEq, Repr

structure Reading where
  events : List Event
  fault : Option Fault
deriving DecidableEq, Repr

def Reading.cons (event : Event) (reading : Reading) : Reading :=
  ⟨event :: reading.events, reading.fault⟩

def tagName (content : List Glyph) : List Glyph :=
  content.takeWhile (!isSpace ·)

def tagAttributes (content : List Glyph) : Except Fault Attributes :=
  readAttributes [] (content.dropWhile (!isSpace ·))

/-- The name of an end tag: its content without the blanks at the end, unless all is blank. -/
def endName (content : List Glyph) : List Glyph :=
  match content.reverse.dropWhile isSpace with
  | [] => content
  | kept => kept.reverse

def readOpening (opened : List (List Glyph)) (content : List Glyph) :
    Except Fault (Event × List (List Glyph)) :=
  if content.getLast? = some (.char '/') then do
    let content := content.dropLast
    return (.empty (lossy (tagName content)) (← tagAttributes content), opened)
  else do
    return (.start (lossy (tagName content)) (← tagAttributes content), tagName content :: opened)

def readClosing (opened : List (List Glyph)) (content : List Glyph) :
    Except Flaw (Event × List (List Glyph)) :=
  let name := endName content
  match opened with
  | [] => .error (.unmatchedEnd ((strict? name).getD ""))
  | expected :: outer =>
    if name = expected then .ok (.close (lossy name), outer)
    else .error (.mismatchedEnd ((strict? expected).getD "") ((strict? name).getD ""))

/-- Reads what is left of a document of `size` octets in which the elements `opened` are open.
The position of a fault is the number of octets before it. -/
def readFrom (size : Nat) (opened : List (List Glyph)) : List Glyph → Reading
  | [] => ⟨[], none⟩
  | g :: gs =>
    match _ : cutPiece g gs with
    | .error snag => ⟨[], some (.malformed (size - width snag.remaining) snag.flaw)⟩
    | .ok (piece, rest) =>
      match piece with
      | .passive => readFrom size opened rest
      | .text content =>
        match strict? content with
        | some content => (readFrom size opened rest).cons (.text content)
        | none => ⟨[], some .badEncoding⟩
      | .reference name =>
        match strict? name with
        | some name => (readFrom size opened rest).cons (.reference name)
        | none => ⟨[], some .badEncoding⟩
      | .opening content =>
        match readOpening opened content with
        | .ok (event, opened) => (readFrom size opened rest).cons event
        | .error fault => ⟨[], some fault⟩
      | .closing content =>
        match readClosing opened content with
        | .ok (event, opened) => (readFrom size opened rest).cons event
        | .error flaw => ⟨[], some (.malformed (size - width (g :: gs)) flaw)⟩
termination_by gs => gs.length
decreasing_by all_goals exact Nat.lt_succ_of_le (length_of_cutPiece ‹_›)

/-- Reads a document; a byte order mark at its start is no part of it. -/
def read : List Glyph → Reading
  | .char '\uFEFF' :: gs => readFrom (width gs) [] gs
  | gs => readFrom (width gs) [] gs

end QuizPress.Xml
