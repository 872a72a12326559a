import ClientGen.Text.Quoted
import ClientGen.Value

/-! Writing JSON text, indented by two spaces. -/
namespace ClientGen

namespace Json

/-- A new line, indented. -/
def newline (depth : Nat) : List Char := '\n' :: List.replicate (2 * depth) ' '

mutual
def print (depth : Nat) : Value → List Char
  | .null => "null".toList
  | .text s => Quoted.encode s.toList
  | .list [] => ['[', ']']
  | .list (v :: vs) =>
    '[' :: newline (depth + 1) ++ print (depth + 1) v ++ printItems (depth + 1) vs
      ++ newline depth ++ [']']
  | .object [] => ['\x7b', '\x7d']
  | .object ((key, v) :: rest) =>
    '\x7b' :: newline (depth + 1) ++ Quoted.encode key.toList ++ [':', ' '] ++ print (depth + 1) v
      ++ printMembers (depth + 1) rest ++ newline depth ++ ['\x7d']

/-- The items after the first, each after a comma. -/
def printItems (depth : Nat) : List Value → List Char
  | [] => []
  | v :: vs => ',' :: newline depth ++ print depth v ++ printItems depth vs

/-- The members after the first, each after a comma. -/
def printMembers (depth : Nat) : List (String × Value) → List Char
  | [] => []
  | (key, v) :: rest =>
    ',' :: newline depth ++ Quoted.encode key.toList ++ [':', ' '] ++ print depth v
      ++ printMembers depth rest
end

end Json

def Value.toJson (v : Value) : String := String.ofList (Json.print 0 v)

end ClientGen
