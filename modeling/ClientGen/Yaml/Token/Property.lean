import ClientGen.Yaml.Text
import ClientGen.Yaml.Token

/-! Anchors, aliases, tags and directives. Here and wherever a scalar is read, `n` is more than the
characters that follow. -/
namespace ClientGen.Yaml

/-- The name of an anchor or alias, after its indicator. -/
def scanName? (p : Place) : Option (String × Place) :=
  let (name, p) := p.takeWhile isWord
  let ends := p.isGapAt 0 || p.rest.head?.any (· ∈ ['?', ':', ',', ']', '\x7d', '%', '@', '`'])
  if name.isEmpty || !ends then none else some (String.ofList name, p)

namespace Tag

def isUriChar (verbatim : Bool) (c : Char) : Bool :=
  isWord c || c ∈ [';', '/', '?', ':', '@', '&', '=', '+', '$', '.', '%', '!', '~', '*', '\'', '(', ')']
    || (verbatim && c ∈ [',', '[', ']'])

def hexByte? : List Char → Option UInt8
  | '%' :: a :: b :: _ =>
    let digit (c : Char) : Option Nat :=
      if c.isDigit then some (c.toNat - '0'.toNat)
      else if 'a' ≤ c ∧ c ≤ 'f' then some (c.toNat - 'a'.toNat + 10)
      else if 'A' ≤ c ∧ c ≤ 'F' then some (c.toNat - 'A'.toNat + 10)
      else none
    do return (16 * (← digit a) + (← digit b)).toUInt8
  | _ => none

/-- How many more bytes follow the first byte of a character. -/
def later? (b : UInt8) : Option Nat :=
  if b < 0x80 then some 0
  else if b / 0x20 = 6 then some 1
  else if b / 0x10 = 14 then some 2
  else if b / 8 = 30 then some 3
  else none

def laterBytes? : Nat → Place → Option (Tag × Place)
  | 0, p => some ([], p)
  | n + 1, p => do
    let b ← hexByte? p.rest
    if b / 0x40 ≠ 2 then none
    let (bytes, p) ← laterBytes? n p.step.step.step
    return (b :: bytes, p)

/-- The bytes of a character, each written as `%` and two digits. Only how many they are is looked at,
not whether there is such a character. -/
def escaped? (p : Place) : Option (Tag × Place) := do
  let b ← hexByte? p.rest
  let (bytes, p) ← laterBytes? (← later? b) p.step.step.step
  return (b :: bytes, p)

/-- Reads the characters of a tag, all of which are ASCII; `bytes` is what was read, reversed. -/
def uri? (verbatim : Bool) : Nat → Place → Tag → Option (Tag × Place)
  | 0, p, bytes => some (bytes.reverse, p)
  | n + 1, p, bytes =>
    match p.rest with
    | [] => some (bytes.reverse, p)
    | c :: _ =>
      if !isUriChar verbatim c then some (bytes.reverse, p)
      else if c == '%' then do
        let (more, p) ← escaped? p
        uri? verbatim n p (more.reverse ++ bytes)
      else uri? verbatim n p.step (c.toNat.toUInt8 :: bytes)

/-- A part of a tag that must not be empty. -/
def scanUri? (verbatim : Bool) (n : Nat) (p : Place) : Option (Tag × Place) := do
  let (bytes, p) ← uri? verbatim n p []
  if bytes.isEmpty then none else return (cut bytes, p)

/-- Reads `!`, a name, and the closing `!` if there is one. -/
def handle (p : Place) : List Char × Bool × Place :=
  let (name, p) := p.step.takeWhile isWord
  match p.rest with
  | '!' :: _ => ('!' :: name ++ ['!'], true, p.step)
  | _ => ('!' :: name, false, p)

/-- A tag: `!<uri>`, `!handle!rest`, `!rest` or `!`. -/
def scan? (flow : Bool) (n : Nat) (p : Place) : Option (Token × Place) := do
  let (token, p) ← match p.rest with
    | '!' :: '<' :: _ => do
      let (tag, p) ← scanUri? true n p.step.step
      match p.rest with
      | '>' :: _ => pure (Token.tag "" tag, p.step)
      | _ => none
    | _ =>
      let (found, closed, after) := handle p
      if closed then do
        let (rest, p) ← scanUri? false n after
        pure (Token.tag (String.ofList found) rest, p)
      else do
        let (rest, p) ← uri? false n after []
        let rest := cut (ofText (String.ofList found.tail) ++ rest)
        pure (if rest.isEmpty then Token.tag "" [mark] else Token.tag "!" rest, p)
  if p.isGapAt 0 || (flow && p.rest.head? = some ',') then return (token, p) else none

end Tag

namespace Directive

def number? (p : Place) : Option (Nat × Place) :=
  let (digits, p) := p.takeWhile Char.isDigit
  if digits.isEmpty || 9 < digits.length then none
  else some (digits.foldl (fun n c => 10 * n + (c.toNat - '0'.toNat)) 0, p)

def version? (p : Place) : Option (Token × Place) := do
  let (major, p) ← number? (p.skipWhile isBlank)
  match p.rest with
  | '.' :: _ => do
    let (minor, p) ← number? p.step
    return (.versionDirective major minor, p)
  | _ => none

def tag? (n : Nat) (p : Place) : Option (Token × Place) := do
  let p := p.skipWhile isBlank
  match p.rest with
  | '!' :: _ =>
    let (handle, closed, p) := Tag.handle p
    if !closed && handle.length ≠ 1 then none
    if !p.rest.head?.any isBlank then none
    let (start, p) ← Tag.scanUri? true n (p.skipWhile isBlank)
    if p.isGapAt 0 then return (.tagDirective (String.ofList handle) start, p)
    else none
  | _ => none

/-- A directive after its indicator, with the end of its line. -/
def scan? (n : Nat) (p : Place) : Option (Token × Place) := do
  let (name, p) := p.takeWhile isWord
  if !p.isGapAt 0 then none
  let (token, p) ←
    if name = "YAML".toList then version? p
    else if name = "TAG".toList then tag? n p
    else none
  return (token, ← p.endLine?)

end Directive
end ClientGen.Yaml
