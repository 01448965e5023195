/-! Binary fractions of 53 digits, and the one that is nearest to a decimal fraction. -/
namespace QuizPress.Decimal

/-- The number `mantissa * 2 ^ exponent`. -/
structure Binary where
  mantissa : Nat
  exponent : Int
deriving DecidableEq, Repr

/-- A quotient rounded to the nearest whole number, and a half to the even one. -/
def roundDiv (num den : Nat) : Nat :=
  let q := num / den
  let r := num % den
  if 2 * r < den then q
  else if den < 2 * r then q + 1
  else q + q % 2

/-- The power of a base for an exponent above zero, and one below. -/
def powUp (base : Nat) (exponent : Int) : Nat := Nat.pow base exponent.toNat

namespace Binary

def digits : Nat := 53

def leastExponent : Int := -1074

def greatestExponent : Int := 971

def nearestTo (num den : Nat) : Binary :=
  let scaled (e : Int) : Nat × Nat := (num * powUp 2 (-e), den * powUp 2 e)
  let least := max ((num.log2 : Int) - den.log2 - digits) leastExponent
  let (a, b) := scaled least
  let exponent := if a / b < Nat.pow 2 digits then least else least + 1
  let (a, b) := scaled exponent
  let mantissa := roundDiv a b
  if mantissa = Nat.pow 2 digits then ⟨Nat.pow 2 (digits - 1), exponent + 1⟩
  else ⟨mantissa, exponent⟩

/-- The nearest number to `coefficient * 10 ^ exponent`; none if that is beyond all of them. -/
def ofDecimal? (coefficient : Nat) (exponent : Int) : Option Binary :=
  let magnitude := (Nat.toDigits 10 coefficient).length + exponent
  if coefficient = 0 ∨ magnitude < -330 then some ⟨0, leastExponent⟩
  else if 310 < magnitude then none
  else
    let x := nearestTo (coefficient * powUp 10 exponent) (powUp 10 (-exponent))
    if greatestExponent < x.exponent then none else some x

end Binary

end QuizPress.Decimal
