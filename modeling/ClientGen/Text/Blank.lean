/-! Blank characters (the Unicode property White_Space), trimming, and lines. -/
namespace ClientGen.Text

def isBlank (c : Char) : Bool :=
  let n := c.toNat
  (9 ≤ n && n ≤ 13) || n == 0x20 || n == 0x85 || n == 0xa0 || n == 0x1680
    || (0x2000 ≤ n && n ≤ 0x200a) || n == 0x2028 || n == 0x2029 || n == 0x202f || n == 0x205f
    || n == 0x3000

/-- Without the blanks at both ends. -/
def trimBlank (s : List Char) : List Char :=
  ((s.dropWhile isBlank).reverse.dropWhile isBlank).reverse

/-- The parts between the line feeds. -/
def lines (s : List Char) : List (List Char) := s.splitOn '\n'

end ClientGen.Text
