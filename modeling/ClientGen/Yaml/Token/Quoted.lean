import ClientGen.Yaml.Token.Gap

/-! Scalars in single and double quotes. -/
namespace ClientGen.Yaml
namespace Quoted

def hexValue? (digits : List Char) : Option Nat :=
  digits.foldlM (fun n c =>
    if c.isDigit then some (16 * n + (c.toNat - '0'.toNat))
    else if 'a' ≤ c ∧ c ≤ 'f' then some (16 * n + (c.toNat - 'a'.toNat + 10))
    else if 'A' ≤ c ∧ c ≤ 'F' then some (16 * n + (c.toNat - 'A'.toNat + 10))
    else none) 0

/-- The character with the number that follows, in as many hexadecimal digits. -/
def numbered? (digits : Nat) (p : Place) : Option (Char × Place) := do
  let ds := p.rest.take digits
  if ds.length < digits then none
  let n ← hexValue? ds
  if n.isValidChar then return (Char.ofNat n, Place.steps digits p) else none

/-- The character after a backslash that stands for another. -/
def escape? (c : Char) : Option Char :=
  match c with
  | '0' => some '\x00'
  | 'a' => some '\x07'
  | 'b' => some '\x08'
  | 't' | '\t' => some '\t'
  | 'n' => some '\n'
  | 'v' => some '\x0b'
  | 'f' => some '\x0c'
  | 'r' => some '\r'
  | 'e' => some '\x1b'
  | ' ' => some ' '
  | '"' => some '"'
  | '/' => some '/'
  | '\\' => some '\\'
  | 'N' => some '\u0085'
  | '_' => some '\u00a0'
  | 'L' => some '\u2028'
  | 'P' => some '\u2029'
  | _ => none

/-- The next character of a scalar in double quotes, which a backslash may give. -/
def readChar? (p : Place) : Option (Char × Place) :=
  match p.rest with
  | '\\' :: 'x' :: _ => numbered? 2 p.step.step
  | '\\' :: 'u' :: _ => numbered? 4 p.step.step
  | '\\' :: 'U' :: _ => numbered? 8 p.step.step
  | '\\' :: c :: _ => (escape? c).map (·, p.step.step)
  | '\\' :: [] => none
  | c :: _ => some (c, p.step)
  | [] => none

/-- Reads up to the closing quote; `text` is what was read, reversed. No document mark may stand at
the start of a line. -/
def scan? (single : Bool) : Nat → Place → List Char → Option (List Char × Place)
  | 0, _, _ => none
  | n + 1, p, text =>
    match p.rest with
    | [] => none
    | c :: rest =>
      if p.isAtDocumentMark then none
      else if isBlank c || isBreak c then do
        let (g, p) ← Gap.scan? 0 n p .empty
        scan? single n p (g.text.reverse ++ text)
      else if single && c == '\'' then
        match rest with
        | '\'' :: _ => scan? single n p.step.step ('\'' :: text)
        | _ => some (text.reverse, p.step)
      else if !single && c == '"' then some (text.reverse, p.step)
      else if !single && c == '\\' && (rest.head?.any isBreak) then do
        let (g, p) ← Gap.scan? 0 n p.step.stepLine .escaped
        scan? single n p (g.text.reverse ++ text)
      else if single then scan? single n p.step (c :: text)
      else do
        let (c, p) ← readChar? p
        scan? single n p (c :: text)

end Quoted

/-- A quoted scalar, after its opening quote. -/
def scanQuoted? (single : Bool) (n : Nat) (p : Place) : Option (String × Place) :=
  (Quoted.scan? single n p []).map fun (text, p) => (String.ofList text, p)

end ClientGen.Yaml
