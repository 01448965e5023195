import QuizPress.Text.Blank
import QuizPress.Text.Numeral

/-! Entity and character references, and attribute values that contain them. -/
namespace QuizPress.Xml
open Text

def predefined : List (List Char × Char) :=
  [(['a', 'm', 'p'], '&'), (['l', 't'], '<'), (['g', 't'], '>'), (['q', 'u', 'o', 't'], '"'),
    (['a', 'p', 'o', 's'], '\'')]

def scalar? (n : Nat) : Option Char :=
  if n.isValidChar then some (Char.ofNat n) else none

def referenced? : List Char → Option Char
  | '#' :: 'x' :: digits => (numeral? 16 digits).bind scalar?
  | '#' :: 'X' :: digits => (numeral? 16 digits).bind scalar?
  | '#' :: digits => (numeral? 10 digits).bind scalar?
  | name => predefined.lookup name

/-- As `referenced?`, but for the spellings alone that the XML standard allows. -/
def referencedStrictly? : List Char → Option Char
  | '#' :: 'x' :: digits => ((unsigned? 16 digits).filter (0 < ·)).bind scalar?
  | '#' :: digits => ((unsigned? 10 digits).filter (0 < ·)).bind scalar?
  | name => predefined.lookup name

/-- The text of a reference: its character, or the reference itself if its name is unknown. -/
def expansion (name : List Char) : List Char :=
  match referenced? name with
  | some c => [c]
  | none => '&' :: name ++ [';']

/-- What ends no reference and begins no other one. -/
def inStrictName (c : Char) : Bool := c != ';' && c != '&'

def inName (c : Char) : Bool := c != ';' && c != '&' && !isBlank c

/-- Replaces every reference; there is no value if one of them is malformed or unknown. -/
def unescape? : List Char → Option (List Char)
  | [] => some []
  | '&' :: cs =>
    match h : cs.dropWhile inStrictName with
    | ';' :: after =>
      have : after.length < cs.length := by
        have := (List.dropWhile_suffix inStrictName (l := cs)).length_le
        simp only [h, List.length_cons] at this
        omega
      (referencedStrictly? (cs.takeWhile inStrictName)).bind fun c => (unescape? after).map (c :: ·)
    | _ => none
  | c :: cs => (unescape? cs).map (c :: ·)
termination_by cs => cs.length

/-- Replaces the references that are known, and keeps the rest of the text as it is written. -/
def unescapeKnown : List Char → List Char
  | [] => []
  | '&' :: cs =>
    let name := cs.takeWhile inName
    match h : cs.dropWhile inName with
    | ';' :: after =>
      have : after.length < cs.length := by
        have := (List.dropWhile_suffix inName (l := cs)).length_le
        simp only [h, List.length_cons] at this
        omega
      if name.isEmpty then '&' :: unescapeKnown cs
      else expansion name ++ unescapeKnown after
    | _ => '&' :: unescapeKnown cs
  | c :: cs => c :: unescapeKnown cs
termination_by cs => cs.length

def attributeValue (written : List Char) : List Char :=
  (unescape? written).getD (unescapeKnown written)

end QuizPress.Xml
