import ClientGen.Text.Decimal

/-! The range of numbers in JSON text. A number is taken as its first digits, as many as fit 64 bits,
and a power of ten. Each is rounded to a double, and so is their product, which may come out beyond the
range where the number written does not, or the other way round. -/
namespace ClientGen.Json

/-- A number in two parts: `digits` times ten to the `exponent`. -/
structure Scaled where
  digits : Nat
  exponent : Int
deriving DecidableEq, Repr

namespace Scaled

/-- Appends digits to `n` until one more would not fit 64 bits, and counts those that are left. -/
def append : Nat → List Char → Nat × Nat
  | n, [] => (n, 0)
  | n, c :: s =>
    let more := 10 * n + (c.toNat - '0'.toNat)
    if more < Nat.pow 2 64 then append more s else (n, s.length + 1)

/-- Digits before the point that do not fit count in the exponent; those after it are lost. -/
def ofParts (whole fraction : List Char) (exponent : Int) : Scaled :=
  let (digits, beyond) := append 0 whole
  let (digits, lost) := append digits fraction
  ⟨digits, exponent + beyond - (fraction.length - lost : Nat)⟩

def isFinite (s : Scaled) : Bool :=
  s.digits = 0 || s.exponent < 0
    || (s.exponent ≤ 308
      && Decimal.nearest s.digits * Decimal.nearest (Nat.pow 10 s.exponent.toNat) < Decimal.bound)

end Scaled
end ClientGen.Json
