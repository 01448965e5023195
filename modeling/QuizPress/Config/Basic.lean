import QuizPress.Config.Expansion
import QuizPress.Config.Toml.Document
import QuizPress.Files.Error
import QuizPress.Text.Blank
import QuizPress.Text.Glyph
import QuizPress.Text.Numeral

/-! The settings of a run: defaults, what a settings file says, and what the caller overrides. -/
namespace QuizPress
open Text Files

namespace Config

inductive Defect where
  | emptyLayout
  | emptyFormat
  | noSlots
  | tooManySlots
deriving DecidableEq, Repr

/-- Why there are no settings. Of a file that is no TOML, or holds a value of another kind than a setting has,
neither the place nor the cause is kept. -/
inductive ConfigError where
  | notFound (path : String)
  | unreadable (error : FileError)
  | malformed
  | unset (name : String)
  | invalid (defect : Defect)
deriving DecidableEq, Repr

def maxSlots : Nat := 26

def Defect.message : Defect → String
  | emptyLayout => "html.layout cannot be empty"
  | emptyFormat => "output.format cannot be empty"
  | noSlots => "tex.answer_slots must be greater than 0"
  | tooManySlots => "tex.answer_slots cannot exceed " ++ toString maxSlots

def ConfigError.message : ConfigError → String
  | notFound path => "Configuration file not found: " ++ path
  | unreadable error => "I/O error: " ++ error.message
  | malformed => "TOML parse error"
  | unset name =>
    "Environment variable error in html.base_url: $\x7b" ++ name ++ "\x7d not set"
  | invalid defect => "Configuration error: " ++ defect.message

structure Overrides where
  format : Option String := none
  baseUrl : Option String := none
  layout : Option String := none
  answerSlots : Option Nat := none
deriving DecidableEq, Repr, Inhabited

end Config

structure Config where
  baseUrl : String := "/MathQuiz/"
  layout : String := "standard"
  answerSlots : Nat := 4
  format : String := "html"
  path : Option String := none
deriving DecidableEq, Repr, Inhabited

namespace Config

/-- The settings of a section: by name in a table, by position in an array, of which the rest is not
looked at. A date or time is a section without settings. -/
def section? (names : List String) : Toml.Value → Option Toml.Table
  | .table _ entries => some entries
  | .tables tables => some (names.zip (tables.map (.table .header)))
  | .list values => some (names.zip values)
  | .moment => some []
  | _ => none

def text? (table : Toml.Table) (name default : String) : Option String :=
  match table.lookup name with
  | none => some default
  | some (.string text) => some text
  | some _ => none

def count? (table : Toml.Table) (name : String) (default : Nat) : Option Nat :=
  match table.lookup name with
  | none => some default
  | some (.integer n) => if 0 ≤ n ∧ n.toNat < countBound then some n.toNat else none
  | some _ => none

def sections : List (String × List String) :=
  [("html", ["base_url", "layout"]), ("tex", ["answer_slots"]), ("output", ["format"])]

/-- The section of a name; it is empty if it is not there. No number in it is too great. -/
def sectionOf? (table : Toml.Table) (name : String) : Option Toml.Table :=
  ((table.lookup name).elim (some []) (section? ((sections.lookup name).getD []))).filter
    Toml.entriesFit

def besides (table : Toml.Table) : Toml.Table :=
  table.filter fun (name, _) => (sections.lookup name).isNone

/-- The settings that a table holds; what is not there keeps its default, and what is no setting
does not matter, as long as its numbers are not too great. -/
def ofTable? (table : Toml.Table) : Option Config := do
  let default : Config := {}
  let html ← sectionOf? table "html"
  let tex ← sectionOf? table "tex"
  let output ← sectionOf? table "output"
  if !Toml.entriesFit (besides table) then none
  return {
    baseUrl := ← text? html "base_url" default.baseUrl
    layout := ← text? html "layout" default.layout
    answerSlots := ← count? tex "answer_slots" default.answerSlots
    format := ← text? output "format" default.format }

def expanded (environment : Environment) (config : Config) : Except ConfigError Config :=
  match expand environment config.baseUrl with
  | .ok baseUrl => .ok { config with baseUrl }
  | .error name => .error (.unset name)

def override (overrides : Overrides) (config : Config) : Config :=
  { config with
    format := overrides.format.getD config.format
    baseUrl := overrides.baseUrl.getD config.baseUrl
    layout := overrides.layout.getD config.layout
    answerSlots := overrides.answerSlots.getD config.answerSlots }

def dropSlashes (url : List Char) : List Char :=
  (url.reverse.dropWhile (· == '/')).reverse

/-- A URL that ends with one slash. The empty one stays empty and leads to what is beside a page. -/
def normalUrl (url : String) : String :=
  if url.isEmpty then "" else .ofList (dropSlashes url.toList ++ ['/'])

def normalize (config : Config) : Config :=
  { config with
    baseUrl := normalUrl config.baseUrl
    layout := trim config.layout
    format := trim config.format }

def defect? (config : Config) : Option Defect :=
  if (trim config.layout).isEmpty then some .emptyLayout
  else if (trim config.format).isEmpty then some .emptyFormat
  else if config.answerSlots = 0 then some .noSlots
  else if maxSlots < config.answerSlots then some .tooManySlots
  else none

def validate (config : Config) : Except ConfigError Config :=
  match config.defect? with
  | some defect => .error (.invalid defect)
  | none => .ok config

def ofOctets (environment : Environment) (path : String) (octets : List UInt8) :
    Except ConfigError Config :=
  match strict? (decode octets) with
  | none => .error (.unreadable .notUtf8)
  | some document =>
    match (Toml.read? document).bind ofTable? with
    | none => .error .malformed
    | some config => (config.expanded environment).map fun config => { config with path := path }

def settle (overrides : Overrides) (config : Config) : Except ConfigError Config :=
  ((config.override overrides).normalize).validate

end Config

end QuizPress
