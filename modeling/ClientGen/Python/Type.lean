import ClientGen.Python.Name

/-! Types in Python. -/
namespace ClientGen.Python

/-- An expression that is evaluated on import must quote the declared types, which may follow it. -/
def typeWith (quoteNames : Bool) : TypeExpr → String
  | .string => "str"
  | .enum values => "Literal[" ++ ", ".intercalate (values.map quoted) ++ "]"
  | .integer => "int"
  | .number => "float"
  | .boolean => "bool"
  | .array item => "list[" ++ typeWith quoteNames item ++ "]"
  | .named name => if quoteNames then quoted name else name
  | .map value => "dict[str, " ++ typeWith quoteNames value ++ "]"
  | .openObject => "dict[str, Any]"
  | .unknown => "Any"

/-- In an annotation, which is not evaluated. -/
def annotation : TypeExpr → String := typeWith false

/-- In an expression that is evaluated on import. -/
def eager : TypeExpr → String := typeWith true

end ClientGen.Python
