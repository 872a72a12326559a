import ClientGen.Yaml.Text

/-! Gaps within a scalar of several lines: blanks and line ends, folded. -/
namespace ClientGen.Yaml

/-- What a gap holds: the blanks before the first line end, that line end, and the later ones. -/
structure Gap where
  blanks : List Char
  first : Option Char
  later : List Char
  /-- Whether a line has ended. -/
  broken : Bool

namespace Gap

def empty : Gap := ⟨[], none, [], false⟩

/-- After an escaped line end, which leaves nothing behind. -/
def escaped : Gap := ⟨[], none, [], true⟩

/-- The text that stands for a gap: one line end becomes a space, more of them lose the first. -/
def text (g : Gap) : List Char :=
  if g.broken then
    match g.first with
    | some '\n' => if g.later.isEmpty then [' '] else g.later
    | some c => c :: g.later
    | none => g.later
  else g.blanks

/-- Reads a gap. At the start of a line, a tab before the column `margin` is refused. -/
def scan? (margin : Nat) : Nat → Place → Gap → Option (Gap × Place)
  | 0, p, g => some (g, p)
  | n + 1, p, g =>
    match p.rest with
    | [] => some (g, p)
    | c :: _ =>
      if isBlank c then
        if g.broken && c == '\t' && p.column < margin then none
        else if g.broken then scan? margin n p.step g
        else scan? margin n p.step { g with blanks := g.blanks ++ [c] }
      else if isBreak c then
        if g.broken then scan? margin n p.stepLine { g with later := g.later ++ [c] }
        else scan? margin n p.stepLine ⟨[], some c, [], true⟩
      else some (g, p)

end Gap
end ClientGen.Yaml
