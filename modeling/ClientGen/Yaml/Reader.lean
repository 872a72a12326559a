import ClientGen.Source
import ClientGen.Yaml.Node.Grammar
import ClientGen.Yaml.Scalar
import ClientGen.Yaml.Token.Lexer

/-! Reading the nodes of a YAML text. Texts that are asked for are taken as they are written; within a
value that is read as a whole, plain scalars are given their meaning first. -/
namespace ClientGen.Yaml

/-- The nodes that aliases stand for, by the number of their anchor. -/
abbrev Anchored := Entries Nat Node

/-- The last node with a number goes before the others. -/
def Anchored.ofNode (root : Node) : Anchored :=
  Entries.ofList (root.all.filterMap fun node => node.anchor?.map (·, node))

/-- Reading a part of a text, and how many more aliases may be followed. -/
abbrev Reading := StateT Nat Option

/-- The node that an alias stands for. -/
def Anchored.follow? (anchored : Anchored) : Node → Reading Node
  | .reference anchor => fun jumps =>
    match jumps with
    | 0 => none
    | jumps + 1 => (Entries.get? anchored anchor).map (·, jumps)
  | node => pure node

/-- The meaning of a scalar, under its tag. -/
def Scalar.meaning? (p : Properties) (text : String) (style : Style) : Option Meaning :=
  let untagged : Meaning := if style = .plain then .ofPlain text else .text
  match p.tag with
  | none => some untagged
  | some tag =>
    if tag.isLocal then none
    else if tag = .standard "bool" then (Meaning.flag? text).map .flag
    else if tag = .standard "int" then Meaning.integer? text.toList
    else if tag = .standard "float" then Meaning.float? text.toList
    else if tag = .standard "null" then if Meaning.isNull text then some .null else none
    else some (if tag.isMarked then untagged else .text)

namespace Meaning

def data? (text : String) : Meaning → Option Data
  | .null => some .null
  | .flag b => some (.flag b)
  | .whole _ | .negative => some (.number true)
  | .tooLarge => none
  | .decimal finite => some (.number finite)
  | .text => some (.text text)

def key? (text : String) : Meaning → Option Key
  | .text => some (.name text)
  | .whole n => some (.place n)
  | .tooLarge => none
  | _ => some .other

end Meaning

/-- The value of a node that may open `room` more collections within one another, and what it is as the
key of a member. No tag within it may be local. -/
def Node.data? (anchored : Anchored) : Nat → Node → Reading (Data × Key)
  | room, node => do
    match ← anchored.follow? node, room with
    | .scalar p text style, _ =>
      let meaning ← Scalar.meaning? p text style
      return (← meaning.data? text, ← meaning.key? text)
    | .list p items, room + 1 =>
      if p.tag.any Tag.isLocal then failure
      let items ← items.mapM (Node.data? anchored room)
      return (.list (items.map Prod.fst), .other)
    | .map p members, room + 1 =>
      if p.tag.any Tag.isLocal then failure
      let members ← members.mapM fun (key, value) => do
        return ((← Node.data? anchored room key).2, (← Node.data? anchored room value).1)
      return (.map members, .other)
    | .void, _ => return (.null, .other)
    | _, _ => failure

/-- A node to be read. -/
structure Cursor where
  node : Node
  anchored : Anchored
  /-- How many more collections may be opened within it. -/
  room : Nat

namespace Cursor

/-- At most 128 collections may be open at a time. -/
def root (node : Node) : Cursor := ⟨node, .ofNode node, 128⟩

/-- The node itself, or what it stands for as an alias. -/
def target? (c : Cursor) : Reading Node := c.anchored.follow? c.node

def scalar? (c : Cursor) : Reading (Properties × String × Style) := do
  match ← c.target? with
  | .scalar p text style => return (p, text, style)
  | _ => failure

def text? (c : Cursor) : Reading String := do
  let (_, text, _) ← c.scalar?
  return text

/-- A scalar that is plain, or a literal one of the given tag. -/
def plain? (tag : String) (c : Cursor) : Reading String := do
  let (p, text, style) ← c.scalar?
  if style = .plain || (style = .literal && p.tag = some (.standard tag)) then return text
  else failure

def flag? (c : Cursor) : Reading Bool := do return ← Meaning.flag? (← c.plain? "bool")

/-- Whether a node says that there is no value. -/
def isAbsent? : Node → Option Bool
  | .void => some true
  | .scalar p text .plain =>
    match p.tag with
    | none => some (text.isEmpty || Meaning.isNull text)
    | some tag =>
      if tag = .standard "null" then if Meaning.isNull text then some true else none
      else some false
  | _ => some false

def present? (c : Cursor) : Reading (Option Cursor) := do
  let node ← c.target?
  return if ← isAbsent? node then none else some { c with node }

/-- Nothing written, which is an empty collection. -/
def isVoid : Node → Bool
  | .void => true
  | .scalar _ text .plain => text.isEmpty
  | _ => false

def inner? (c : Cursor) : Option (Node → Cursor) :=
  match c.room with
  | 0 => none
  | room + 1 => some fun node => { c with node, room }

def items? (c : Cursor) : Reading (List Cursor) := do
  match ← c.target? with
  | .list _ items => return items.map (← c.inner?)
  | node => if isVoid node then return [] else failure

def members? (c : Cursor) : Reading (List (String × Cursor)) := do
  match ← c.target? with
  | .map _ members =>
    let inner ← c.inner?
    members.mapM fun (key, value) => do return (← (inner key).text?, inner value)
  | node => if isVoid node then return [] else failure

instance : Source Reading Cursor where
  text? := text?
  flag? := flag?
  present? := present?
  items? := items?
  entries? := members?
  record? names c := do
    let members ← c.members?
    return ← Record.ofMembers? names (members.map fun (key, v) => (.name key, v))
  data? c := do return (← c.node.data? c.anchored c.room).1

/-- A whole number of 64 bits. -/
def whole? (c : Cursor) : Reading Nat := do
  let n ← Meaning.unsigned? (← c.plain? "int").toList
  if n < Nat.pow 2 64 then return n else failure

/-- A word: as a text, or as a local tag of nothing. -/
def word? (c : Cursor) : Reading String := do
  let (p, text, style) ← c.scalar?
  match p.tag.bind Tag.localName? with
  | some name =>
    if style = .plain && (text.isEmpty || Meaning.isNull text) then return name else failure
  | none => return text

end Cursor

namespace Node
variable {α : Type}

/-- What is read from a node. For every node of its text 100 aliases may be followed. -/
def read? (node : Node) (read : Cursor → Reading α) : Option α :=
  (read (.root node)).run' (100 * node.size)

def ofText? (text : String) : Option Node := do
  let tokens ← tokens? (← prepare? text)
  ofTokens? tokens

end Node
end ClientGen.Yaml
