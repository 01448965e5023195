/-! Text written so that it can stand in an attribute or in a CDATA section. -/
namespace QuizPress.Xml

def escapeWith (write : Char → List Char) (s : String) : String :=
  .ofList (s.toList.flatMap write)

def quotedChar : Char → List Char
  | '&' => ['&', 'a', 'm', 'p', ';']
  | '<' => ['&', 'l', 't', ';']
  | '"' => ['&', 'q', 'u', 'o', 't', ';']
  | c => [c]

def textChar : Char → List Char
  | '>' => ['&', 'g', 't', ';']
  | c => quotedChar c

def markedChar : Char → List Char
  | '\'' => ['&', 'a', 'p', 'o', 's', ';']
  | c => textChar c

/-- Attributes with a blank before each, values written by `escape` between double quotes. -/
def writeAttributes (escape : String → String) (attributes : List (String × String)) : String :=
  String.join (attributes.map fun (name, value) => " " ++ name ++ "=\"" ++ escape value ++ "\"")

/-- A `]]>` of which the brackets end a section and the rest begins the next one. -/
def sectionBreak : List Char := "]]]]><![CDATA[>".toList

/-- Splits every `]]>` in two, so that none is left when the pieces stand in sections of their own. -/
def splitClosers : List Char → List Char
  | ']' :: ']' :: '>' :: cs => sectionBreak ++ splitClosers cs
  | c :: cs => c :: splitClosers cs
  | [] => []

def cdata (s : String) : String :=
  if s.isEmpty then ""
  else "<![CDATA[" ++ .ofList (splitClosers s.toList) ++ "]]>"

end QuizPress.Xml
