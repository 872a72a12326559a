import ClientGen.Text.Letter.Alphanumeric
import ClientGen.Text.Letter.Cases

/-! Classes of characters, and lower case. ASCII is decided without the tables. -/
namespace ClientGen.Letter

def isAsciiAlnum (c : Char) : Bool := c.isDigit || c.isLower || c.isUpper

def inRun (n : Nat) (run : Nat × Nat × Nat) : Bool :=
  run.1 ≤ n && n ≤ run.2.1 && (n - run.1) % run.2.2 == 0

def isAlnum (c : Char) : Bool :=
  if c.toNat < 0x80 then isAsciiAlnum c
  else alphanumericRuns.any fun run => run.1 ≤ c.toNat && c.toNat ≤ run.2

def isUpper (c : Char) : Bool :=
  if c.toNat < 0x80 then c.isUpper else upperRuns.any (inRun c.toNat)

def isLower (c : Char) : Bool :=
  if c.toNat < 0x80 then c.isLower else lowerRuns.any (inRun c.toNat)

/-- The full mapping of one character: one character, but for the capital i with a dot. -/
def lower (c : Char) : List Char :=
  let n := c.toNat
  if n < 0x80 then [c.toLower]
  else if n = 0x130 then ['i', '\u0307']
  else match loweringRuns.find? fun run => inRun n (run.1, run.2.1, run.2.2.1) with
    | some (_, _, _, distance) => [Char.ofNat (n + distance).toNat]
    | none => [c]

end ClientGen.Letter
