import ClientGen.Entries

/-! Type expressions, in no particular language. -/
namespace ClientGen

inductive TypeExpr where
  | string
  | enum (values : List String)
  | integer
  | number
  | boolean
  | array (item : TypeExpr)
  /-- A declared schema, by its final name. -/
  | named (name : String)
  /-- Values of one type under any text. -/
  | map (value : TypeExpr)
  | openObject
  | unknown
deriving DecidableEq, Repr

namespace TypeExpr

/-- The declared schema that the expression mentions. -/
def name? : TypeExpr → Option String
  | named name => some name
  | array item => item.name?
  | map value => value.name?
  | _ => none

/-- A short text, in no particular language. -/
def describe : TypeExpr → String
  | string => "string"
  | enum values => "enum(" ++ "|".intercalate values ++ ")"
  | integer => "integer"
  | number => "number"
  | boolean => "boolean"
  | array item => "array<" ++ item.describe ++ ">"
  | named name => name
  | map value => "map<" ++ value.describe ++ ">"
  | openObject => "object"
  | unknown => "unknown"

end TypeExpr

structure Field where
  /-- The property name. -/
  name : String
  type : TypeExpr
  required : Bool
deriving DecidableEq, Repr

/-- How a schema is declared. -/
inductive Declaration where
  | object (fields : List Field) (additional : Option TypeExpr)
  | enum (values : List String)
  | synonym (type : TypeExpr)
deriving DecidableEq, Repr

end ClientGen
