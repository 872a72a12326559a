import ClientGen.Text.Replace

/-! The paths that `$ref` holds: `#/components/` followed by a section and a name. -/
namespace ClientGen

inductive ReferenceError
  | malformed (path : String)
  | wrongSection (expected found path : String)
  | circular (path : String)
  | missing (path : String)
deriving DecidableEq, Repr

namespace ReferenceError

def message : ReferenceError → String
  | malformed path => "invalid reference format: " ++ path
  | wrongSection expected found path =>
    "invalid reference format: expected section '" ++ expected ++ "', got '" ++ found ++ "' in "
      ++ path
  | circular path => "invalid reference format: circular reference at " ++ path
  | missing path => "reference target not found: " ++ path

end ReferenceError

namespace Reference

def root : List Char := "#/components/".toList

/-- The name after `#/components/`, the section and a slash. -/
def target (expected path : String) : Except ReferenceError String :=
  match (Text.after? root path.toList).bind (Text.cut? '/') with
  | none => .error (.malformed path)
  | some (found, name) =>
    if String.ofList found = expected then .ok (String.ofList name)
    else .error (.wrongSection expected (String.ofList found) path)

/-- The schema that a path names; the name must not be empty. -/
def schemaName? (path : String) : Option String :=
  match Text.after? (root ++ "schemas/".toList) path.toList with
  | some (c :: name) => some (String.ofList (c :: name))
  | _ => none

end Reference

end ClientGen
