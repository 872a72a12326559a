import ClientGen.Yaml.Token.Gap

/-! Plain scalars. -/
namespace ClientGen.Yaml
namespace Plain

def isFlowIndicator (c : Char) : Bool := c ∈ [',', '[', ']', '\x7b', '\x7d']

/-- A colon before an indicator is refused within brackets. -/
def isBadColon (flow : Bool) (p : Place) : Bool :=
  match p.rest with
  | ':' :: c :: _ => flow && (isFlowIndicator c || c == '?')
  | _ => false

/-- Whether the scalar ends before the character at hand. -/
def endsAt (flow : Bool) (p : Place) : Bool :=
  match p.rest with
  | [] => true
  | c :: _ => (c == ':' && p.isGapAt 1) || (flow && isFlowIndicator c)

/-- A scalar goes on after a gap, unless a comment, a document mark or a line of less indentation
follows. -/
structure Scanned where
  /-- What was read, reversed. -/
  text : List Char
  place : Place
  /-- Whether the gap after it has ended a line. -/
  broken : Bool

/-- The characters up to the next gap or the end; `none` where a colon is refused. -/
def word? (flow : Bool) : Nat → Place → List Char → Option (List Char × Place)
  | 0, p, text => some (text, p)
  | n + 1, p, text =>
    if p.isGapAt 0 then some (text, p)
    else if isBadColon flow p then none
    else if endsAt flow p then some (text, p)
    else match p.rest with
      | c :: _ => word? flow n p.step (c :: text)
      | [] => some (text, p)

/-- Reads on at the start of a word. `text` ends with the word before, and `g` is the gap between. -/
def scan? (flow : Bool) (margin : Nat) : Nat → Place → List Char → Gap → Option Scanned
  | 0, p, text, g => some ⟨text, p, g.broken⟩
  | n + 1, p, text, g =>
    if p.isAtDocumentMark || p.rest.head? = some '#' then some ⟨text, p, g.broken⟩
    else do
      let (word, after) ← word? flow n p []
      let text := if word.isEmpty then text else word ++ (g.text.reverse ++ text)
      let broken := if word.isEmpty then g.broken else false
      match after.rest with
      | [] => some ⟨text, after, broken⟩
      | c :: _ =>
        if isBlank c || isBreak c then
          let (g, next) ← Gap.scan? margin n after .empty
          if !flow && next.column < margin then some ⟨text, next, g.broken⟩
          else scan? flow margin n next text g
        else some ⟨text, after, broken⟩

end Plain

/-- A plain scalar whose later lines are indented to `margin`, and whether a line end follows it. -/
def scanPlain? (flow : Bool) (margin n : Nat) (p : Place) : Option (String × Place × Bool) :=
  (Plain.scan? flow margin n p [] .empty).map
    fun s => (String.ofList s.text.reverse, s.place, s.broken)

end ClientGen.Yaml
