import ClientGen.Yaml.Token.Block
import ClientGen.Yaml.Token.Plain
import ClientGen.Yaml.Token.Property
import ClientGen.Yaml.Token.Quoted

/-! The tokens of a text. A mapping key is only known by the colon after it, so the place of a possible
key is kept and the tokens that open it are put in later. -/
namespace ClientGen.Yaml

/-- A token that may turn out to be the first of a key. -/
structure PossibleKey where
  /-- How many tokens come before it. -/
  position : Nat
  /-- Nothing but a key may stand there. -/
  required : Bool
  index : Nat
  line : Nat
  column : Nat

structure Lexer where
  place : Place
  tokens : Array Token
  /-- The column of the innermost block collection, -1 outside of all. -/
  indent : Int
  outerIndents : List Int
  /-- The possible key outside of brackets and within each pair of them, innermost first. -/
  keys : List (Option PossibleKey)
  keyAllowed : Bool

namespace Lexer

def start (s : List Char) : Lexer := ⟨.start s, #[], -1, [], [none], true⟩

def inFlow (l : Lexer) : Bool := l.keys.tail.isEmpty.not

def push (l : Lexer) (t : Token) : Lexer := { l with tokens := l.tokens.push t }

/-- Past `n` characters, which are the given token. -/
def take (l : Lexer) (n : Nat) (t : Token) : Lexer :=
  { l with tokens := l.tokens.push t, place := l.place.steps n }

/-- Past blanks, comments and line ends, and past a byte order mark at the start of a line. A tab is not
skipped where a block key may stand. -/
def skipGaps : Nat → Lexer → Lexer
  | 0, l => l
  | n + 1, l =>
    match l.place.rest with
    | [] => l
    | c :: _ =>
      if c == ' ' || (c == '\t' && (l.inFlow || !l.keyAllowed))
          || (isByteOrderMark c && l.place.column == 0) then
        skipGaps n { l with place := l.place.step }
      else if c == '#' then skipGaps n { l with place := l.place.skipComment }
      else if isBreak c then
        skipGaps n { l with place := l.place.stepLine, keyAllowed := l.keyAllowed || !l.inFlow }
      else l

/-- A key ends on its line and within 1024 bytes. -/
def isStale (p : Place) (k : PossibleKey) : Bool := k.line < p.line || k.index + 1024 < p.index

/-- Gives up the possible keys that are too far back; one of them may be required. -/
def dropStale? (l : Lexer) : Option Lexer := do
  let keys ← l.keys.mapM fun k =>
    match k with
    | none => some none
    | some k => if isStale l.place k then if k.required then none else some none else some (some k)
  return { l with keys }

/-- Closes the block collections that are indented further than `column`. -/
def unroll (column : Int) (l : Lexer) : Lexer :=
  if l.inFlow then l
  else
    let closed := (l.indent :: l.outerIndents).takeWhile (column < ·)
    match (l.indent :: l.outerIndents).dropWhile (column < ·) with
    | indent :: outerIndents =>
      { l with
        tokens := l.tokens ++ closed.map fun _ => Token.blockEnd
        indent, outerIndents }
    | [] => l

/-- Opens a block collection at `column`, unless it is open; its token goes to `position`. -/
def roll (column position : Nat) (t : Token) (l : Lexer) : Lexer :=
  if !l.inFlow && l.indent < column then
    { l with
      tokens := l.tokens.insertIdxIfInBounds position t
      indent := column
      outerIndents := l.indent :: l.outerIndents }
  else l

def rollHere (t : Token) (l : Lexer) : Lexer := l.roll l.place.column l.tokens.size t

/-- Gives up the possible key at this level, unless it is required. -/
def dropKey? (l : Lexer) : Option Lexer :=
  match l.keys with
  | some k :: keys => if k.required then none else some { l with keys := none :: keys }
  | _ => some l

/-- Notes that a key may begin here. -/
def saveKey? (l : Lexer) : Option Lexer :=
  if l.keyAllowed then do
    let l ← l.dropKey?
    let p := l.place
    let required := !l.inFlow && l.indent == p.column
    return { l with
      keys := some ⟨l.tokens.size, required, p.index, p.line, p.column⟩ :: l.keys.tail }
  else some l

def documentMark? (t : Token) (l : Lexer) : Option Lexer := do
  let l ← (l.unroll (-1)).dropKey?
  return { l with keyAllowed := false }.take 3 t

def directive? (n : Nat) (l : Lexer) : Option Lexer := do
  let l ← (l.unroll (-1)).dropKey?
  let (t, place) ← Directive.scan? n l.place.step
  return { l.push t with place, keyAllowed := false }

def openFlow? (t : Token) (l : Lexer) : Option Lexer := do
  let l ← l.saveKey?
  return { l with keys := none :: l.keys, keyAllowed := true }.take 1 t

def closeFlow? (t : Token) (l : Lexer) : Option Lexer := do
  let l ← l.dropKey?
  return { l with
    keys := if l.inFlow then l.keys.tail else l.keys
    keyAllowed := false }.take 1 t

def flowEntry? (l : Lexer) : Option Lexer := do
  let l ← l.dropKey?
  return { l with keyAllowed := true }.take 1 .flowEntry

/-- Opens a block collection where one may begin. -/
def openBlock? (t : Token) (l : Lexer) : Option Lexer :=
  if l.inFlow then some l else if l.keyAllowed then some (l.rollHere t) else none

def blockEntry? (l : Lexer) : Option Lexer := do
  let l ← (← l.openBlock? .blockSequenceStart).dropKey?
  return { l with keyAllowed := true }.take 1 .blockEntry

def key? (l : Lexer) : Option Lexer := do
  let l ← (← l.openBlock? .blockMappingStart).dropKey?
  return { l with keyAllowed := !l.inFlow }.take 1 .key

def value? (l : Lexer) : Option Lexer :=
  match l.keys with
  | some k :: keys =>
    let l := { l with
      tokens := l.tokens.insertIdxIfInBounds k.position .key
      keys := none :: keys
      keyAllowed := false }
    some ((l.roll k.column k.position .blockMappingStart).take 1 .value)
  | _ => do
    let l ← l.openBlock? .blockMappingStart
    return { l with keyAllowed := !l.inFlow }.take 1 .value

/-- A token that may begin a key. -/
def keyStart? (scan : Place → Option (Token × Place)) (l : Lexer) : Option Lexer := do
  let l ← l.saveKey?
  let (t, place) ← scan l.place
  return { l.push t with place, keyAllowed := false }

def blockScalar? (folded : Bool) (n : Nat) (l : Lexer) : Option Lexer := do
  let l ← l.dropKey?
  let (text, place) ← scanBlock? folded l.indent n l.place.step
  return { l.push (.scalar text (if folded then .quoted else .literal)) with
    place
    keyAllowed := true }

def plain? (n : Nat) (l : Lexer) : Option Lexer := do
  let l ← l.saveKey?
  let (text, place, broken) ← scanPlain? l.inFlow (l.indent + 1).toNat n l.place
  return { l.push (.scalar text .plain) with place, keyAllowed := broken }

/-- Whether a plain scalar may begin here. -/
def startsPlain (l : Lexer) (c : Char) : Bool :=
  let p := l.place
  if c == '-' then !p.rest[1]?.any isBlank
  else if c == '?' || c == ':' then !l.inFlow && !p.isGapAt 1
  else !(isBlank c || isBreak c || c ∈ [',', '[', ']', '\x7b', '\x7d', '#', '&', '*', '!', '|', '>',
    '\'', '"', '%', '@', '`'])

/-- The next token, which begins with `c`. -/
def content? (n : Nat) (l : Lexer) (c : Char) : Option Lexer :=
  let p := l.place
  if p.column == 0 && c == '%' then l.directive? n
  else if p.isAtMark '-' then l.documentMark? .documentStart
  else if p.isAtMark '.' then l.documentMark? .documentEnd
  else if c == '[' then l.openFlow? .flowSequenceStart
  else if c == '\x7b' then l.openFlow? .flowMappingStart
  else if c == ']' then l.closeFlow? .flowSequenceEnd
  else if c == '\x7d' then l.closeFlow? .flowMappingEnd
  else if c == ',' then l.flowEntry?
  else if c == '-' && p.isGapAt 1 then l.blockEntry?
  else if c == '?' && (l.inFlow || p.isGapAt 1) then l.key?
  else if c == ':' && (l.inFlow || p.isGapAt 1) then l.value?
  else if c == '*' then l.keyStart? fun p => (scanName? p.step).map fun (s, p) => (.reference s, p)
  else if c == '&' then l.keyStart? fun p => (scanName? p.step).map fun (s, p) => (.anchor s, p)
  else if c == '!' then l.keyStart? (Tag.scan? l.inFlow n)
  else if c == '|' && !l.inFlow then l.blockScalar? false n
  else if c == '>' && !l.inFlow then l.blockScalar? true n
  else if c == '\'' || c == '"' then
    l.keyStart? fun p => (scanQuoted? (c == '\'') n p.step).map fun (s, p) => (.scalar s .quoted, p)
  else if l.startsPlain c then l.plain? n
  else none

/-- The end of the text closes what is open. -/
def finish? (l : Lexer) : Option (Array Token) := do
  let l ← (l.unroll (-1)).dropKey?
  return l.tokens.push .streamEnd

/-- Every token takes at least one character, so that `n` is more than those that follow. -/
def run? : Nat → Lexer → Option (Array Token)
  | 0, _ => none
  | n + 1, l => do
    let l ← (l.skipGaps n).dropStale?
    let l := l.unroll l.place.column
    match l.place.rest with
    | [] => l.finish?
    | c :: _ => run? n (← l.content? (n + 1) c)

end Lexer

def tokens? (s : List Char) : Option (List Token) :=
  (Lexer.run? (s.length + 1) (.start s)).map Array.toList

end ClientGen.Yaml
