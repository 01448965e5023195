import QuizPress.Decimal.Binary
import QuizPress.Decimal.Shortest

/-! Numbers as people write them, and one canonical way to write each. -/
namespace QuizPress.Decimal

/-- The number `coefficient * 10 ^ exponent`, or its negative. -/
structure Literal where
  negative : Bool
  coefficient : Nat
  exponent : Int
deriving DecidableEq, Repr

def valueOf (ds : List Char) : Nat :=
  ds.foldl (fun n c => 10 * n + (c.toNat - 48)) 0

def splitDigits (cs : List Char) : List Char × List Char :=
  cs.span Char.isDigit

def exponent? : List Char → Option Int
  | [] => some 0
  | mark :: cs =>
    if mark = 'e' ∨ mark = 'E' then
      let (negative, cs) := match cs with
        | '-' :: cs => (true, cs)
        | '+' :: cs => (false, cs)
        | cs => (false, cs)
      if cs.isEmpty || !cs.all Char.isDigit then none
      else some (if negative then -(valueOf cs : Int) else valueOf cs)
    else none

/-- A number without its sign: digits with a point anywhere among them, then an exponent. -/
def unsignedLiteral? (negative : Bool) (cs : List Char) : Option Literal :=
  let (whole, cs) := splitDigits cs
  let (fraction, cs) := match cs with
    | '.' :: cs => splitDigits cs
    | cs => ([], cs)
  if whole.isEmpty && fraction.isEmpty then none
  else (exponent? cs).map fun e => ⟨negative, valueOf (whole ++ fraction), e - fraction.length⟩

def Literal.read? : List Char → Option Literal
  | '-' :: cs => unsignedLiteral? true cs
  | cs => unsignedLiteral? false cs

/-- The number as it is compared: rounded to a binary fraction, then written with the fewest
digits that tell it from the others. None if it is beyond all of them. -/
def Literal.canonical? (literal : Literal) : Option String :=
  (Binary.ofDecimal? literal.coefficient literal.exponent).map fun x =>
    let (coefficient, place) := x.shortest
    (if literal.negative then "-" else "") ++ positional coefficient place

end QuizPress.Decimal
