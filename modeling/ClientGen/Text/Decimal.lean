/-! The size of decimal numbers, against the range of doubles. -/
namespace ClientGen.Decimal

def value (digits : List Char) : Nat :=
  digits.foldl (fun n c => 10 * n + (c.toNat - '0'.toNat)) 0

/-- The least number that rounds to infinity. -/
def bound : Nat := Nat.pow 2 1024 - Nat.pow 2 970

/-- The whole number of 53 binary digits, and zeros after them, that is nearest; of two the even one. -/
def nearest (n : Nat) : Nat :=
  let unit := Nat.pow 2 (n.log2 - 52)
  let up := if n % unit * 2 > unit || (n % unit * 2 = unit && n / unit % 2 = 1) then 1 else 0
  (n / unit + up) * unit

/-- Whether `digits` times ten to the `exponent` rounds to a finite double. The bound has 309 digits,
so only a number with as many before the point has to be compared. -/
def isFinite (digits : List Char) (exponent : Int) : Bool :=
  match digits.dropWhile (· = '0') with
  | [] => true
  | significant =>
    let places := significant.length + exponent
    if places < 309 then true
    else if 309 < places then false
    else if 0 ≤ exponent then decide (value significant * Nat.pow 10 exponent.toNat < bound)
    else decide (value significant < bound * Nat.pow 10 (-exponent).toNat)

end ClientGen.Decimal
