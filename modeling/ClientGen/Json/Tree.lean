import ClientGen.Source

/-! The tree of a JSON text. What is only wrong if it is read is marked, since a member that nobody
asks for may hold it: a text with half of a surrogate pair, a number beyond the range of doubles. -/
namespace ClientGen.Json

inductive Tree where
  | null
  | flag (b : Bool)
  | number (inRange : Bool)
  | text (s : Option String)
  | list (items : List Tree)
  | object (members : List (Option String × Tree))

mutual
/-- The value of a tree that may open `room` more lists and objects within one another. -/
def Tree.data? : Nat → Tree → Option Data
  | _, .null => some .null
  | _, .flag b => some (.flag b)
  | _, .number inRange => if inRange then some (.number true) else none
  | _, .text s => s.map .text
  | 0, .list _ => none
  | 0, .object _ => none
  | room + 1, .list items => (itemsData? room items).map .list
  | room + 1, .object members => (membersData? room members).map .map

def itemsData? : Nat → List Tree → Option (List Data)
  | _, [] => some []
  | room, t :: rest => do
    let d ← t.data? room
    let ds ← itemsData? room rest
    return d :: ds

def membersData? : Nat → List (Option String × Tree) → Option (List (Key × Data))
  | _, [] => some []
  | room, (key, t) :: rest => do
    let key ← key
    let d ← t.data? room
    let ds ← membersData? room rest
    return (.name key, d) :: ds
end

/-- A tree, and how many more lists and objects may be opened within it. -/
structure Node where
  tree : Tree
  room : Nat

namespace Node

/-- At most 127 lists and objects may be open at a time. -/
def root (t : Tree) : Node := ⟨t, 127⟩

def keyed (room : Nat) : List (Option String × Tree) → Option (List (String × Node))
  | [] => some []
  | (key, t) :: rest => do
    let key ← key
    let rest ← keyed room rest
    return (key, ⟨t, room⟩) :: rest

instance : Source Option Node where
  text?
    | ⟨.text s, _⟩ => s
    | _ => none
  flag?
    | ⟨.flag b, _⟩ => some b
    | _ => none
  present? n := some (if n.tree matches .null then none else some n)
  items?
    | ⟨.list items, room + 1⟩ => some (items.map (⟨·, room⟩))
    | _ => none
  entries?
    | ⟨.object members, room + 1⟩ => keyed room members
    | _ => none
  record? names
    | ⟨.object members, room + 1⟩ => do
      let members ← keyed room members
      Record.ofMembers? names (members.map fun (key, n) => (.name key, n))
    | ⟨.list items, room + 1⟩ => Record.ofItems? names (items.map (⟨·, room⟩))
    | _ => none
  data? n := n.tree.data? n.room

end Node
end ClientGen.Json
