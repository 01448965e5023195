/-! What can be wrong with a document before any of its elements has a meaning. -/
namespace QuizPress.Xml

inductive Flaw where
  | unclosedTag
  | unclosedQuote (quote : Char)
  | unclosedReference
  | unclosedComment
  | unclosedCData
  | unclosedDoctype
  | unclosedDeclaration
  | unclosedInstruction
  | unknownMarkup
  | namelessDoctype
  | mismatchedEnd (expected found : String)
  | unmatchedEnd (name : String)
deriving DecidableEq, Repr

/-- What ended the reading of a document: a flaw and the octets before it, a tag whose
attributes cannot be read, or text that is no UTF-8. -/
inductive Fault where
  | malformed (position : Nat) (flaw : Flaw)
  | badAttribute
  | badEncoding
deriving DecidableEq, Repr

/-- What is open to the end of the input, and the mark that would close it. -/
def unclosed (what mark : String) : String :=
  what ++ " not closed: `" ++ mark ++ "` not found before end of input"

def Flaw.message : Flaw → String
  | unclosedTag => "syntax error: " ++ unclosed "tag" ">"
  | unclosedQuote quote => "syntax error: " ++ unclosed "attribute value" quote.toString
  | unclosedReference => "ill-formed document: " ++ unclosed "entity or character reference" ";"
  | unclosedComment => "syntax error: " ++ unclosed "comment" "-->"
  | unclosedCData => "syntax error: " ++ unclosed "CDATA" "]]>"
  | unclosedDoctype => "syntax error: " ++ unclosed "DOCTYPE" ">"
  | unclosedDeclaration => "syntax error: " ++ unclosed "XML declaration" "?>"
  | unclosedInstruction => "syntax error: " ++ unclosed "processing instruction" "?>"
  | unknownMarkup => "syntax error: unknown or missed symbol in markup"
  | namelessDoctype =>
    "ill-formed document: `<!DOCTYPE>` declaration does not contain a name of a document type"
  | mismatchedEnd expected found =>
    "ill-formed document: expected `</" ++ expected ++ ">`, but `</" ++ found ++ ">` was found"
  | unmatchedEnd name =>
    "ill-formed document: close tag `</" ++ name ++ ">` does not match any open tag"

def Fault.message : Fault → String
  | malformed position flaw => "XML error at byte " ++ toString position ++ ": " ++ flaw.message
  | badAttribute => "XML attribute error"
  | badEncoding => "encoding error"

end QuizPress.Xml
