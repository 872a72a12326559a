/-! String literals in double quotes, as JSON, TypeScript and Python read them alike. -/
namespace ClientGen.Quoted

def hexDigit (n : Nat) : Char := if n < 10 then Char.ofNat (48 + n) else Char.ofNat (87 + n)

/-- Quotes, backslashes and control characters are escaped, all else is written as it is. -/
def escape (c : Char) : List Char :=
  if c = '"' then ['\\', '"']
  else if c = '\\' then ['\\', '\\']
  else if c = '\x08' then ['\\', 'b']
  else if c = '\x0c' then ['\\', 'f']
  else if c = '\n' then ['\\', 'n']
  else if c = '\r' then ['\\', 'r']
  else if c = '\t' then ['\\', 't']
  else if c.toNat < 0x20 then
    ['\\', 'u', '0', '0', hexDigit (c.toNat / 16), hexDigit (c.toNat % 16)]
  else [c]

def encode (s : List Char) : List Char := '"' :: (s.flatMap escape ++ ['"'])

end ClientGen.Quoted

/-- The literal of a text. -/
def ClientGen.quoted (s : String) : String := String.ofList (Quoted.encode s.toList)
