import ClientGen.Yaml.Text

/-! Literal and folded block scalars. -/
namespace ClientGen.Yaml
namespace Block

/-- What becomes of the line ends after the last line. -/
inductive Chomp
  | strip
  | clip
  | keep
deriving DecidableEq, Repr

def chomp? : Char → Option Chomp
  | '-' => some .strip
  | '+' => some .keep
  | _ => none

/-- An indentation of one to nine. -/
def indentation? (c : Char) : Option (Option Nat) :=
  if c = '0' then none else if c.isDigit then some (some (c.toNat - '0'.toNat)) else some none

/-- The two indicators of the header, in either order. -/
def header? (p : Place) : Option (Chomp × Option Nat × Place) :=
  match p.rest with
  | [] => some (.clip, none, p)
  | c :: rest =>
    match chomp? c with
    | some chomp =>
      match rest with
      | [] => some (chomp, none, p.step)
      | d :: _ => do
        match ← indentation? d with
        | some n => return (chomp, some n, p.step.step)
        | none => return (chomp, none, p.step)
    | none => do
      match ← indentation? c with
      | none => return (.clip, none, p)
      | some n =>
        match rest.head?.bind chomp? with
        | some chomp => return (chomp, some n, p.step.step)
        | none => return (.clip, some n, p.step)

/-- Past indentation and empty lines, with the line ends and the widest indentation seen. Where `indent`
is not known yet any number of spaces is indentation; a tab is refused in its place. -/
def breaks? (indent : Option Nat) :
    Nat → Place → List Char → Nat → Option (List Char × Nat × Place)
  | 0, p, ends, widest => some (ends, widest, p)
  | n + 1, p, ends, widest =>
    let within (p : Place) : Bool := indent.all (p.column < ·)
    match p.rest with
    | [] => some (ends, max widest p.column, p)
    | c :: _ =>
      if c == ' ' && within p then breaks? indent n p.step ends widest
      else if c == '\t' && within p then none
      else if isBreak c then breaks? indent n p.stepLine (ends ++ [c]) (max widest p.column)
      else some (ends, max widest p.column, p)

/-- The lines of a scalar, joined so far. -/
structure Lines where
  /-- Reversed. -/
  text : List Char
  /-- The end of the last line. -/
  lastEnd : List Char
  /-- The ends of the empty lines after it. -/
  later : List Char
  /-- Whether the last line began with a blank, and so is not folded. -/
  indented : Bool

/-- The text with the line ends that come before another line: folded between two lines that begin with
no blank. -/
def Lines.join (l : Lines) (folded blank : Bool) : List Char :=
  if folded && l.lastEnd.head? == some '\n' && !l.indented && !blank then
    if l.later.isEmpty then ' ' :: l.text else l.later.reverse ++ l.text
  else l.later.reverse ++ (l.lastEnd.reverse ++ l.text)

def lines? (folded : Bool) (indent : Nat) : Nat → Place → Lines → Option (Lines × Place)
  | 0, p, l => some (l, p)
  | n + 1, p, l =>
    match p.rest with
    | [] => some (l, p)
    | c :: _ =>
      if p.column == indent then do
        let blank := isBlank c
        let (line, p) := p.takeWhile (!isBreak ·)
        let text := line.reverse ++ l.join folded blank
        let (lastEnd, p) := match p.rest with
          | c :: _ => ([c], p.stepLine)
          | [] => ([], p)
        let (later, _, p) ← breaks? (some indent) n p [] 0
        lines? folded indent n p ⟨text, lastEnd, later, blank⟩
      else some (l, p)

def Lines.chomped (l : Lines) : Chomp → List Char
  | .strip => l.text.reverse
  | .clip => l.text.reverse ++ l.lastEnd
  | .keep => l.text.reverse ++ l.lastEnd ++ l.later

end Block

/-- A block scalar after its indicator. `outer` is the indentation around it, -1 for none. -/
def scanBlock? (folded : Bool) (outer : Int) (n : Nat) (p : Place) : Option (String × Place) := do
  let (chomp, width, p) ← Block.header? p
  let p ← p.endLine?
  let known := width.map fun w => if 0 ≤ outer then outer.toNat + w else w
  let (later, widest, p) ← Block.breaks? known n p [] 0
  let indent := known.getD (max widest (max (outer + 1).toNat 1))
  let (lines, p) ← Block.lines? folded indent n p ⟨[], [], later, false⟩
  return (String.ofList (lines.chomped chomp), p)

end ClientGen.Yaml
