import QuizPress.Config.Toml.Value
import QuizPress.Decimal.Literal
import QuizPress.Text.Numeral

/-! TOML values without quotes: truth values, numbers, dates and times. -/
namespace QuizPress.Config.Toml
open Text

/-- The digits of a run in which single underscores may stand between two digits. -/
def digits? (radix : Nat) : List Char → Option (List Char)
  | [] => none
  | [c] => (digit? radix c).map fun _ => [c]
  | c :: '_' :: cs => (digit? radix c).bind fun _ => (digits? radix cs).map (c :: ·)
  | c :: cs => (digit? radix c).bind fun _ => (digits? radix cs).map (c :: ·)

def wholeDigits? (cs : List Char) : Option (List Char) :=
  (digits? 10 cs).filter fun ds => ds.length = 1 || ds.head? != some '0'

def splitSign : List Char → Bool × List Char
  | '-' :: cs => (true, cs)
  | '+' :: cs => (false, cs)
  | cs => (false, cs)

/-- Integers beyond 128 bits are too great. -/
def ofInteger (n : Int) : Value :=
  if -(Nat.pow 2 127 : Int) ≤ n ∧ n < Nat.pow 2 128 then .integer n else .excessive

def integer? : List Char → Option Int
  | '0' :: 'x' :: cs => ofRadix 16 cs
  | '0' :: 'o' :: cs => ofRadix 8 cs
  | '0' :: 'b' :: cs => ofRadix 2 cs
  | cs =>
    let (negative, cs) := splitSign cs
    (wholeDigits? cs).map fun ds =>
      if negative then -(Decimal.valueOf ds : Int) else Decimal.valueOf ds
where
  ofRadix (radix : Nat) (cs : List Char) : Option Int :=
    ((digits? radix cs).bind (unsigned? radix)).map Int.ofNat

def fraction? : List Char → Option (List Char)
  | [] => some []
  | _ :: cs => digits? 10 cs

def exponent? : List Char → Option Int
  | [] => some 0
  | _ :: cs =>
    let (negative, cs) := splitSign cs
    (digits? 10 cs).map fun ds =>
      if negative then -(Decimal.valueOf ds : Int) else Decimal.valueOf ds

def float? (cs : List Char) : Option Value :=
  let cs := (splitSign cs).2
  let (mantissa, mark) := cs.span fun c => c != 'e' && c != 'E'
  let (whole, point) := mantissa.span (· != '.')
  if cs = "inf".toList || cs = "nan".toList then some .float
  else if mark.isEmpty && point.isEmpty then none
  else do
    let whole ← wholeDigits? whole
    let fraction ← fraction? point
    let exponent ← exponent? mark
    match Decimal.Binary.ofDecimal? (Decimal.valueOf (whole ++ fraction))
        (exponent - fraction.length) with
    | some _ => return .float
    | none => return .excessive

def fixed? (count : Nat) (cs : List Char) : Option (Nat × List Char) :=
  let ds := cs.take count
  if ds.length = count && ds.all Char.isDigit then some (Decimal.valueOf ds, cs.drop count)
  else none

def bounded? (bound : Nat) (cs : List Char) : Option (Nat × List Char) :=
  (fixed? 2 cs).filter fun (n, _) => n ≤ bound

def expect? (c : Char) : List Char → Option (List Char)
  | d :: cs => if c = d then some cs else none
  | [] => none

def daysIn (year month : Nat) : Nat :=
  match month with
  | 2 => if year % 4 = 0 ∧ (year % 100 ≠ 0 ∨ year % 400 = 0) then 29 else 28
  | 4 | 6 | 9 | 11 => 30
  | _ => 31

def date? (cs : List Char) : Option (List Char) := do
  let (year, cs) ← fixed? 4 cs
  let (month, cs) ← bounded? 12 (← expect? '-' cs)
  let (day, cs) ← fixed? 2 (← expect? '-' cs)
  if 1 ≤ month ∧ 1 ≤ day ∧ day ≤ daysIn year month then some cs else none

def seconds? : List Char → Option (List Char)
  | ':' :: cs => do
    let (_, cs) ← bounded? 60 cs
    match cs with
    | '.' :: cs => if (cs.head?.elim false Char.isDigit) then some (cs.dropWhile Char.isDigit) else none
    | cs => some cs
  | cs => some cs

def time? (cs : List Char) : Option (List Char) := do
  let (_, cs) ← bounded? 23 cs
  let (_, cs) ← bounded? 59 (← expect? ':' cs)
  seconds? cs

def isOffset : List Char → Bool
  | [] => true
  | ['Z'] => true
  | ['z'] => true
  | sign :: cs =>
    (sign == '+' || sign == '-') &&
      ((do
        let (_, cs) ← bounded? 23 cs
        let (_, cs) ← bounded? 59 (← expect? ':' cs)
        return cs.isEmpty).getD false)

/-- A date, a time, or both of them with a distance from universal time. -/
def isMoment (cs : List Char) : Bool :=
  match date? cs with
  | some [] => true
  | some (mark :: rest) =>
    (mark == 'T' || mark == 't' || mark == ' ') && (time? rest).elim false isOffset
  | none => time? cs == some []

def scalar? (cs : List Char) : Option Value :=
  if cs = "true".toList then some (.boolean true)
  else if cs = "false".toList then some (.boolean false)
  else (integer? cs).map ofInteger <|> float? cs <|> if isMoment cs then some .moment else none

end QuizPress.Config.Toml
