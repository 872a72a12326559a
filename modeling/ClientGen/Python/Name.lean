import ClientGen.Model
import ClientGen.Text.Quoted

/-! Names in Python. -/
namespace ClientGen.Python

def keywords : List String :=
  ["False", "None", "True", "and", "as", "assert", "async", "await", "break", "class", "continue",
    "def", "del", "elif", "else", "except", "finally", "for", "from", "global", "if", "import",
    "in", "is", "lambda", "nonlocal", "not", "or", "pass", "raise", "return", "try", "while",
    "with", "yield", "match", "case", "type"]

/-- The names that generated methods and models use. -/
def taken : List String :=
  ["self", "body", "response", "model_config", "json", "dict", "copy", "schema", "validate",
    "construct", "fields"]

/-- Imports, built-in types and classes beside the declared types. -/
def generatedNames : List String :=
  ["Any", "Literal", "NotRequired", "TypedDict", "Iterator", "Mapping", "BaseModel", "ConfigDict",
    "Field", "ApiClient", "ApiClientConfig", "ApiError", "Transport", "ServiceClient", "requests",
    "schemas", "str", "int", "float", "bool", "list", "dict"]

def isIdentifier (name : String) : Bool :=
  match name.toList with
  | [] => false
  | c :: rest =>
    (c.isLower || c.isUpper || c == '_')
      && (rest.all fun c => Letter.isAsciiAlnum c || c == '_') && !(name ∈ keywords)

/-- In snake case, and neither a keyword nor a name of the code around it. -/
def ident (name : String) : String :=
  let snake := Words.snake name.toList
  let s := String.ofList snake
  match snake with
  | [] => "_"
  | c :: _ =>
    if c.isDigit then "_" ++ s
    else if s ∈ keywords || s ∈ taken then s ++ "_"
    else s

/-- Whether a schema of this name would hide a keyword, an import or a generated class. -/
def isTaken (m : Model) (name : String) : Bool :=
  name ∈ keywords || name ∈ generatedNames || name ∈ m.serviceClassNames

end ClientGen.Python
