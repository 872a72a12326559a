import ClientGen.Json.Number
import ClientGen.Json.Tree

/-! Reading JSON text: strict, without comments or trailing commas. -/
namespace ClientGen.Json

def isSpace (c : Char) : Bool := c = ' ' || c = '\t' || c = '\n' || c = '\r'

def skipSpace (s : List Char) : List Char := s.dropWhile isSpace

def hexDigit? (c : Char) : Option Nat :=
  if c.isDigit then some (c.toNat - '0'.toNat)
  else if 'a' ≤ c ∧ c ≤ 'f' then some (c.toNat - 'a'.toNat + 10)
  else if 'A' ≤ c ∧ c ≤ 'F' then some (c.toNat - 'A'.toNat + 10)
  else none

def hexUnit? (a b c d : Char) : Option Nat := do
  let a ← hexDigit? a
  let b ← hexDigit? b
  let c ← hexDigit? c
  let d ← hexDigit? d
  return ((a * 16 + b) * 16 + c) * 16 + d

def isHighHalf (n : Nat) : Bool := 0xd800 ≤ n && n < 0xdc00

def isLowHalf (n : Nat) : Bool := 0xdc00 ≤ n && n < 0xe000

/-- The character that a backslash and the given one stand for. -/
def shortEscape? : Char → Option Char
  | '"' => some '"'
  | '\\' => some '\\'
  | '/' => some '/'
  | 'b' => some '\x08'
  | 'f' => some '\x0c'
  | 'n' => some '\n'
  | 'r' => some '\r'
  | 't' => some '\t'
  | _ => none

/-- One character of a string literal: itself, or nothing for half of a surrogate pair. -/
def readEscape? : List Char → Option (Option Char × List Char)
  | 'u' :: a :: b :: c :: d :: rest => do
    let n ← hexUnit? a b c d
    if isLowHalf n then return (none, rest)
    else if isHighHalf n then
      match rest with
      | '\\' :: 'u' :: e :: f :: g :: h :: after =>
        match hexUnit? e f g h with
        | some m =>
          if isLowHalf m then
            return (some (Char.ofNat (0x10000 + (n - 0xd800) * 0x400 + (m - 0xdc00))), after)
          else return (none, rest)
        | none => return (none, rest)
      | _ => return (none, rest)
    else return (some (Char.ofNat n), rest)
  | c :: rest => do return (some (← shortEscape? c), rest)
  | [] => none

/-- The rest of a string literal, after its opening quote. -/
def readText? : Nat → List Char → Option (Option (List Char) × List Char)
  | 0, _ => none
  | _ + 1, [] => none
  | n + 1, c :: s =>
    if c = '"' then some (some [], s)
    else if c = '\\' then do
      let (char, s) ← readEscape? s
      let (text, s) ← readText? n s
      return ((do return (← char) :: (← text)), s)
    else if c.toNat < 0x20 then none
    else do
      let (text, s) ← readText? n s
      return (text.map (c :: ·), s)

/-- A string literal, after its opening quote. -/
def readString? (n : Nat) (s : List Char) : Option (Option String × List Char) := do
  let (text, rest) ← readText? n s
  return (text.map String.ofList, rest)

def digits? (s : List Char) : Option (List Char × List Char) :=
  match s.span Char.isDigit with
  | ([], _) => none
  | found => some found

/-- The digits before the point; the first is zero only if it is the only one. -/
def whole? (s : List Char) : Option (List Char × List Char) :=
  match s with
  | '0' :: rest => some (['0'], rest)
  | s => digits? s

def fraction? (s : List Char) : Option (List Char × List Char) :=
  match s with
  | '.' :: rest => digits? rest
  | s => some ([], s)

def exponent? (s : List Char) : Option (Int × List Char) :=
  match s with
  | c :: rest =>
    if c = 'e' ∨ c = 'E' then
      match rest with
      | '-' :: rest => (digits? rest).map fun (ds, rest) => (-(Decimal.value ds : Int), rest)
      | '+' :: rest => (digits? rest).map fun (ds, rest) => ((Decimal.value ds : Int), rest)
      | rest => (digits? rest).map fun (ds, rest) => ((Decimal.value ds : Int), rest)
    else some (0, c :: rest)
  | [] => some (0, [])

def readNumber? (s : List Char) : Option (Tree × List Char) := do
  let s := match s with
    | '-' :: rest => rest
    | s => s
  let (whole, s) ← whole? s
  let (fraction, s) ← fraction? s
  let (exponent, s) ← exponent? s
  return (.number (Scaled.ofParts whole fraction exponent).isFinite, s)

mutual
/-- A value; every step takes a character or goes from a list or object to its first part. -/
def readValue? : Nat → List Char → Option (Tree × List Char)
  | 0, _ => none
  | n + 1, s =>
    match skipSpace s with
    | '"' :: rest => (readString? n rest).map fun (text, rest) => (.text text, rest)
    | '[' :: rest =>
      match skipSpace rest with
      | ']' :: rest => some (.list [], rest)
      | rest => (readItems? n rest).map fun (items, rest) => (.list items, rest)
    | '\x7b' :: rest =>
      match skipSpace rest with
      | '\x7d' :: rest => some (.object [], rest)
      | rest => (readMembers? n rest).map fun (members, rest) => (.object members, rest)
    | 'n' :: 'u' :: 'l' :: 'l' :: rest => some (.null, rest)
    | 't' :: 'r' :: 'u' :: 'e' :: rest => some (.flag true, rest)
    | 'f' :: 'a' :: 'l' :: 's' :: 'e' :: rest => some (.flag false, rest)
    | s => readNumber? s

/-- The items of a list that is not empty, and its closing bracket. -/
def readItems? : Nat → List Char → Option (List Tree × List Char)
  | 0, _ => none
  | n + 1, s => do
    let (item, s) ← readValue? n s
    match skipSpace s with
    | ']' :: rest => some ([item], rest)
    | ',' :: rest => (readItems? n rest).map fun (items, rest) => (item :: items, rest)
    | _ => none

/-- The members of an object that is not empty, and its closing brace. -/
def readMembers? : Nat → List Char → Option (List (Option String × Tree) × List Char)
  | 0, _ => none
  | n + 1, s =>
    match skipSpace s with
    | '"' :: rest => do
      let (key, s) ← readString? n rest
      match skipSpace s with
      | ':' :: rest => do
        let (value, s) ← readValue? n rest
        match skipSpace s with
        | '\x7d' :: rest => some ([(key, value)], rest)
        | ',' :: rest =>
          (readMembers? n rest).map fun (members, rest) => ((key, value) :: members, rest)
        | _ => none
      | _ => none
    | _ => none
end

/-- The one value of a text. -/
def Tree.ofText? (text : String) : Option Tree := do
  let s := text.toList
  let (tree, rest) ← readValue? (2 * s.length + 2) s
  if (skipSpace rest).isEmpty then some tree else none

/-- The text, read as a node. -/
def Node.ofText? (text : String) : Option Node := (Tree.ofText? text).map root

end ClientGen.Json
