/-! Whole numbers written in digits. -/
namespace QuizPress.Text

def digit? (radix : Nat) (c : Char) : Option Nat :=
  let n := c.toNat
  let value :=
    if 48 ≤ n ∧ n ≤ 57 then some (n - 48)
    else if 97 ≤ n ∧ n ≤ 122 then some (n - 87)
    else if 65 ≤ n ∧ n ≤ 90 then some (n - 55)
    else none
  value.filter (· < radix)

/-- The value of one or more digits, leading zeros included. -/
def unsigned? (radix : Nat) (cs : List Char) : Option Nat :=
  if cs.isEmpty then none
  else cs.foldlM (fun n c => (digit? radix c).map (n * radix + ·)) 0

def numeral? (radix : Nat) : List Char → Option Nat
  | '+' :: cs => unsigned? radix cs
  | cs => unsigned? radix cs

def countBound : Nat := Nat.pow 2 64

def count? (s : String) : Option Nat :=
  (numeral? 10 s.toList).filter (· < countBound)

end QuizPress.Text
