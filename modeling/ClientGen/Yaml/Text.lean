/-! The characters of a YAML text, and a place within it. -/
namespace ClientGen.Yaml

/-- After line ends are made alike, three characters end a line. -/
def isBreak (c : Char) : Bool := c = '\n' || c = '\u2028' || c = '\u2029'

def isBlank (c : Char) : Bool := c = ' ' || c = '\t'

/-- The characters of anchors, handles and directive names. -/
def isWord (c : Char) : Bool := c.isAlphanum || c = '_' || c = '-'

/-- What a text may hold at all. -/
def isAllowed (c : Char) : Bool :=
  let n := c.toNat
  n = 0x09 || n = 0x0a || n = 0x0d || (0x20 ≤ n && n ≤ 0x7e) || n = 0x85
    || (0xa0 ≤ n && n ≤ 0xfffd) || 0x10000 ≤ n

/-- A byte order mark, which is passed over at the start of a line. -/
def isByteOrderMark (c : Char) : Bool := c = '\ufeff'

/-- A carriage return, alone or before a line feed, and a next-line mark become line feeds. -/
def evenBreaks : List Char → List Char
  | [] => []
  | '\r' :: '\n' :: s => '\n' :: evenBreaks s
  | '\r' :: s => '\n' :: evenBreaks s
  | '\u0085' :: s => '\n' :: evenBreaks s
  | c :: s => c :: evenBreaks s

/-- The characters of a text, if all are allowed. -/
def prepare? (text : String) : Option (List Char) :=
  let s := text.toList
  if s.all isAllowed then some (evenBreaks s) else none

/-- A place: what follows it, and where it is. -/
structure Place where
  rest : List Char
  /-- In bytes of UTF-8. -/
  index : Nat
  line : Nat
  column : Nat

namespace Place

def start (s : List Char) : Place := ⟨s, 0, 0, 0⟩

/-- Past one character that does not end a line. -/
def step (p : Place) : Place :=
  ⟨p.rest.tail, p.index + p.rest.head?.elim 0 Char.utf8Size, p.line, p.column + 1⟩

def steps : Nat → Place → Place
  | 0, p => p
  | n + 1, p => steps n p.step

/-- Past one character that ends a line. -/
def stepLine (p : Place) : Place :=
  ⟨p.rest.tail, p.index + p.rest.head?.elim 0 Char.utf8Size, p.line + 1, 0⟩

/-- Past the leading characters with a property, and those. No line ends among them. -/
def takeWhile (test : Char → Bool) (p : Place) : List Char × Place :=
  let (taken, rest) := p.rest.span test
  let index := taken.foldl (fun n c => n + c.utf8Size) p.index
  (taken, ⟨rest, index, p.line, p.column + taken.length⟩)

def skipWhile (test : Char → Bool) (p : Place) : Place := (p.takeWhile test).2

/-- Whether the character `n` places on is a blank, a line end, or nothing. -/
def isGapAt (p : Place) (n : Nat) : Bool :=
  match p.rest[n]? with
  | none => true
  | some c => isBlank c || isBreak c

/-- A document mark: `---` or `...` at the start of a line, and nothing after it. -/
def isAtMark (p : Place) (c : Char) : Bool :=
  p.column == 0 && [c, c, c].isPrefixOf p.rest && p.isGapAt 3

def isAtDocumentMark (p : Place) : Bool := p.isAtMark '-' || p.isAtMark '.'

/-- Past a comment, if there is one. -/
def skipComment (p : Place) : Place :=
  match p.rest with
  | '#' :: _ => p.skipWhile (!isBreak ·)
  | _ => p

/-- Past blanks and a comment up to the end of the line, where nothing else may stand, and past that. -/
def endLine? (p : Place) : Option Place :=
  let p := (p.skipWhile isBlank).skipComment
  match p.rest with
  | [] => some p
  | c :: _ => if isBreak c then some p.stepLine else none

end Place
end ClientGen.Yaml
