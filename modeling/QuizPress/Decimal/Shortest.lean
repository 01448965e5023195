import QuizPress.Decimal.Binary

/-! The shortest decimal fraction that is nearer to a binary one than to its neighbours. -/
namespace QuizPress.Decimal
namespace Binary

/-- Whether `a * 10 ^ place` is at most (or, if strict, below) `b * 2 ^ exponent`. -/
def atMost (strict : Bool) (a : Nat) (place : Int) (b : Nat) (exponent : Int) : Bool :=
  let left := a * powUp 10 place * powUp 2 (-exponent)
  let right := b * powUp 2 exponent * powUp 10 (-place)
  if strict then left < right else left ≤ right

def atLeast (strict : Bool) (a : Nat) (place : Int) (b : Nat) (exponent : Int) : Bool :=
  let left := a * powUp 10 place * powUp 2 (-exponent)
  let right := b * powUp 2 exponent * powUp 10 (-place)
  if strict then right < left else right ≤ left

/-- Whether `a * 10 ^ place` rounds to `x`: it lies between the middles to both neighbours, and
a middle itself belongs to the even mantissa. -/
def contains (x : Binary) (a : Nat) (place : Int) : Bool :=
  let strict := x.mantissa % 2 == 1
  let below := if x.mantissa = Nat.pow 2 (digits - 1) ∧ leastExponent < x.exponent then 1 else 2
  atLeast strict a place (4 * x.mantissa - below) (x.exponent - 2) &&
    atMost strict a place (4 * x.mantissa + 2) (x.exponent - 2)

/-- The multiple of `10 ^ place` that rounds to `x`, if there is one; of two the nearer, and the
greater of two that are equally near. -/
def onGrid? (x : Binary) (place : Int) : Option (Nat × Int) :=
  let num := x.mantissa * powUp 2 x.exponent * powUp 10 (-place)
  let den := powUp 2 (-x.exponent) * powUp 10 place
  let floor := num / den
  match x.contains floor place, x.contains (floor + 1) place with
  | true, true => some (if 2 * (num % den) < den then floor else floor + 1, place)
  | true, false => some (floor, place)
  | false, true => some (floor + 1, place)
  | false, false => none

/-- The decimal fraction of fewest digits that rounds to a positive `x`. -/
def shortest (x : Binary) : Nat × Int :=
  if x.mantissa = 0 then (0, 0)
  else ((List.range 634).findSome? fun (i : Nat) => x.onGrid? (309 - (i : Int))).getD (0, 0)

end Binary

def positional (coefficient : Nat) (place : Int) : String :=
  let ds := Nat.toDigits 10 coefficient
  if 0 ≤ place then .ofList (ds ++ List.replicate place.toNat '0')
  else
    let places := (-place).toNat
    let ds := List.replicate (places + 1 - ds.length) '0' ++ ds
    .ofList (ds.take (ds.length - places)) ++ "." ++ .ofList (ds.drop (ds.length - places))

end QuizPress.Decimal
