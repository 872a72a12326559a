/-! Values of a data format, once their text is read. Numbers carry no value: nothing that shapes a
client is a number. -/
namespace ClientGen

/-- The key of a member. A whole number may stand for the place of a field; nothing else but text is
usable. -/
inductive Key
  | name (s : String)
  | place (n : Nat)
  | other
deriving DecidableEq, Repr

inductive Data where
  | null
  | flag (b : Bool)
  /-- Infinite and undefined numbers are told apart as a document cannot list them. -/
  | number (finite : Bool)
  | text (s : String)
  | list (items : List Data)
  | map (members : List (Key × Data))

mutual
def Data.depth : Data → Nat
  | .list items => depthOfAll items + 1
  | .map members => depthOfEntries members + 1
  | _ => 0

def depthOfAll : List Data → Nat
  | [] => 0
  | d :: rest => max d.depth (depthOfAll rest)

def depthOfEntries : List (Key × Data) → Nat
  | [] => 0
  | (_, d) :: rest => max d.depth (depthOfEntries rest)
end

mutual
/-- Whether every key within is text. -/
def Data.isPlain : Data → Bool
  | .list items => allPlain items
  | .map members => entriesPlain members
  | _ => true

def allPlain : List Data → Bool
  | [] => true
  | d :: rest => d.isPlain && allPlain rest

def entriesPlain : List (Key × Data) → Bool
  | [] => true
  | (key, d) :: rest => (key matches .name _) && d.isPlain && entriesPlain rest
end

end ClientGen
