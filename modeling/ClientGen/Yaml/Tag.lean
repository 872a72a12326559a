/-! Tags, which say what kind of node they stand before. -/
namespace ClientGen.Yaml

/-- The bytes of a tag. Its escapes may give any, so they need not be those of a text. -/
abbrev Tag := List UInt8

namespace Tag

def ofText (s : String) : Tag := s.toUTF8.toList

/-- One of the tags that every reader knows. -/
def standard (name : String) : Tag := ofText ("tag:yaml.org,2002:" ++ name)

/-- The byte of `!`. -/
def mark : UInt8 := 0x21

/-- What follows the mark of a tag that names a type of the reader's own. -/
def localName? : Tag → Option String
  | [] => none
  | b :: name => if b = mark then String.fromUTF8? name.toByteArray else none

def isLocal (t : Tag) : Bool := t.localName?.isSome

/-- Whether a tag begins like a local one; what follows need not be text. -/
def isMarked (t : Tag) : Bool := t.head? = some mark

/-- A tag ends where its bytes are zero. -/
def cut (t : Tag) : Tag := t.takeWhile (· ≠ 0)

end Tag
end ClientGen.Yaml
