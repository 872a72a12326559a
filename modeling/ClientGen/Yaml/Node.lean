import ClientGen.Yaml.Token

/-! The nodes of a YAML text. -/
namespace ClientGen.Yaml

structure Properties where
  /-- The number of the anchor, where there is one. -/
  anchor : Option Nat
  tag : Option Tag
deriving DecidableEq, Repr

def Properties.none : Properties := ⟨.none, .none⟩

inductive Node where
  /-- What a text without any node holds. -/
  | void
  /-- An alias, by the number of its anchor. -/
  | reference (anchor : Nat)
  | scalar (p : Properties) (text : String) (style : Style)
  | list (p : Properties) (items : List Node)
  | map (p : Properties) (members : List (Node × Node))

namespace Node

/-- What stands where a node is left out. -/
def empty : Node := .scalar .none "" .plain

mutual
/-- One for a scalar or an alias, two for the ends of a collection. -/
def size : Node → Nat
  | .list _ items => sizeOfAll items + 2
  | .map _ members => sizeOfMembers members + 2
  | _ => 1

def sizeOfAll : List Node → Nat
  | [] => 0
  | node :: rest => node.size + sizeOfAll rest

def sizeOfMembers : List (Node × Node) → Nat
  | [] => 0
  | (key, value) :: rest => key.size + value.size + sizeOfMembers rest
end

def anchor? : Node → Option Nat
  | .scalar p _ _ => p.anchor
  | .list p _ => p.anchor
  | .map p _ => p.anchor
  | _ => none

mutual
/-- The node and all within, each before its parts. -/
def all : Node → List Node
  | .list p items => .list p items :: allOf items
  | .map p members => .map p members :: allOfMembers members
  | node => [node]

def allOf : List Node → List Node
  | [] => []
  | node :: rest => node.all ++ allOf rest

def allOfMembers : List (Node × Node) → List Node
  | [] => []
  | (key, value) :: rest => key.all ++ value.all ++ allOfMembers rest
end

end Node
end ClientGen.Yaml
