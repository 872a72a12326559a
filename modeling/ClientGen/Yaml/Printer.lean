import ClientGen.Text.Quoted
import ClientGen.Value
import ClientGen.Yaml.Scalar
import ClientGen.Yaml.Text

/-! Writing YAML text in block style. A list is not indented further than the key above it. -/
namespace ClientGen
namespace Yaml

namespace Written

def isPrintable (c : Char) : Bool := isAllowed c && !(c ∈ ['\t', '\r', '\u0085', '\ufeff'])

/-- Whether two neighbours have the given properties. -/
def hasPair (f g : Char → Bool) : List Char → Bool
  | c :: d :: s => (f c && g d) || hasPair f g (d :: s)
  | _ => false

def isSpace (c : Char) : Bool := c == ' '

def isGap (c : Char) : Bool := isBlank c || isBreak c

/-- Whether a colon ends a word, or a number sign begins one. -/
def hasInnerIndicator (s : List Char) : Bool :=
  hasPair (· == ':') isGap s || s.getLast? == some ':' || hasPair isGap (· == '#') s

/-- Whether a text begins like something other than a plain scalar. -/
def hasOuterIndicator (s : List Char) : Bool :=
  match s with
  | [] => false
  | c :: rest =>
    c ∈ ['#', ',', '[', ']', '\x7b', '\x7d', '&', '*', '!', '|', '>', '\'', '"', '%', '@', '`']
      || (c ∈ ['?', ':', '-'] && rest.head?.all isGap)
      || "---".toList.isPrefixOf s || "...".toList.isPrefixOf s

def isPlain (s : List Char) : Bool :=
  s.all isPrintable && !s.any isBreak && s.head? != some ' ' && s.getLast? != some ' '
    && !hasOuterIndicator s && !hasInnerIndicator s

def isSingle (s : List Char) : Bool :=
  s.all isPrintable && !hasPair isBreak isSpace s && !hasPair isSpace isBreak s

def isLiteral (s : List Char) : Bool :=
  s.all isPrintable && !hasPair isSpace isBreak s && s.getLast? != some ' '

/-- Whether the text, left plain, reads back as itself and not as another kind of value. -/
def isText (s : String) : Bool := Meaning.ofPlain s = .text && !Meaning.isPadded s.toList

def spaces (n : Nat) : List Char := List.replicate n ' '

/-- Every line after a break is indented, unless it is empty. -/
def indentBreaks (indent : Nat) : Bool → List Char → List Char
  | _, [] => []
  | broken, c :: s =>
    if isBreak c then c :: indentBreaks indent true s
    else (if broken then spaces indent else []) ++ c :: indentBreaks indent false s

def endsLine (s : List Char) : Bool := s.getLast?.any isBreak

/-- What comes after the bar: the indentation, where the first line does not show it, and what
becomes of the breaks at the end. -/
def hints (s : List Char) : List Char :=
  (if s.head?.any fun c => isSpace c || isBreak c then ['2'] else [])
    ++ (if !endsLine s then ['-'] else if s.length = 1 || endsLine s.dropLast then ['+'] else [])

def literal (indent : Nat) (s : List Char) : List Char :=
  '|' :: hints s ++ '\n' :: indentBreaks indent true s

/-- A quote is written twice. -/
def single (indent : Nat) (s : List Char) : List Char :=
  let inner := indentBreaks indent false (s.flatMap fun c => if c = '\'' then ['\'', '\''] else [c])
  '\'' :: inner ++ (if endsLine s then spaces indent else []) ++ ['\'']

def upperHex (n : Nat) : Char := if n < 10 then Char.ofNat (48 + n) else Char.ofNat (55 + n)

def hexDigits : Nat → Nat → List Char
  | 0, _ => []
  | width + 1, n => hexDigits width (n / 16) ++ [upperHex (n % 16)]

/-- Quotes, backslashes, breaks and what cannot be printed are escaped. -/
def escape (c : Char) : List Char :=
  let n := c.toNat
  if c = '"' || c = '\\' then ['\\', c]
  else if isPrintable c && !isBreak c then [c]
  else '\\' ::
    match n with
    | 0x00 => ['0']
    | 0x07 => ['a']
    | 0x08 => ['b']
    | 0x09 => ['t']
    | 0x0a => ['n']
    | 0x0b => ['v']
    | 0x0c => ['f']
    | 0x0d => ['r']
    | 0x1b => ['e']
    | 0x85 => ['N']
    | 0x2028 => ['L']
    | 0x2029 => ['P']
    | _ =>
      if n ≤ 0xff then 'x' :: hexDigits 2 n
      else if n ≤ 0xffff then 'u' :: hexDigits 4 n
      else 'U' :: hexDigits 8 n

def double (s : List Char) : List Char := '"' :: (s.flatMap escape ++ ['"'])

/-- A text with line ends is written literally, one that would be misread in quotes. -/
def scalar (indent : Nat) (text : String) : List Char :=
  let s := text.toList
  if '\n' ∈ s then if isLiteral s then literal indent s else double s
  else if isText text && isPlain s then s
  else if isSingle s then single indent s
  else double s

/-- A scalar to the end of its line. -/
def scalarLine (indent : Nat) (text : String) : List Char :=
  let written := scalar indent text
  if endsLine written then written else written ++ ['\n']

end Written

mutual
def printMembers (indent : Nat) : List (String × Value) → List Char
  | [] => []
  | (key, v) :: rest =>
    Written.spaces indent ++ key.toList ++ [':'] ++ printMember indent v ++ printMembers indent rest

/-- What comes after the colon of a member. -/
def printMember (indent : Nat) : Value → List Char
  | .null => " null\n".toList
  | .text s => ' ' :: Written.scalarLine (indent + 2) s
  | .list [] => " []\n".toList
  | .list (v :: vs) => '\n' :: printItem indent v ++ printItems indent vs
  | .object [] => [' ', '\x7b', '\x7d', '\n']
  | .object (m :: ms) => '\n' :: printMembers (indent + 2) (m :: ms)

def printItems (indent : Nat) : List Value → List Char
  | [] => []
  | v :: vs => printItem indent v ++ printItems indent vs

/-- An item; the first line of a collection within goes after the dash. -/
def printItem (indent : Nat) (v : Value) : List Char :=
  Written.spaces indent ++ '-' :: ' ' :: match v with
    | .null => "null\n".toList
    | .text s => Written.scalarLine (indent + 2) s
    | .list [] => "[]\n".toList
    | .list (v :: vs) =>
      (printItem (indent + 2) v ++ printItems (indent + 2) vs).drop (indent + 2)
    | .object [] => ['\x7b', '\x7d', '\n']
    | .object (m :: ms) => (printMembers (indent + 2) (m :: ms)).drop (indent + 2)
end

end Yaml

/-- The text of an object, member by member. -/
def Value.toYaml : Value → String
  | .object (m :: ms) => String.ofList (Yaml.printMembers 0 (m :: ms))
  | v => String.ofList ((Yaml.printMember 0 v).drop 1)

end ClientGen
