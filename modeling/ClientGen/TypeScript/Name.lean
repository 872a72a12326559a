import ClientGen.Model
import ClientGen.Text.Quoted

/-! Names and keys in TypeScript. -/
namespace ClientGen.TypeScript

/-- Keywords, and the names that generated methods use. -/
def reserved : List String :=
  ["break", "case", "catch", "class", "const", "continue", "debugger", "default", "delete", "do",
    "else", "enum", "export", "extends", "false", "finally", "for", "function", "if", "import",
    "in", "instanceof", "new", "null", "return", "super", "switch", "this", "throw", "true", "try",
    "typeof", "var", "void", "while", "with", "yield", "let", "static", "implements", "interface",
    "package", "private", "protected", "public", "await", "async",
    "body", "query", "options", "response"]

/-- Globals, exports and imports beside the declared types. -/
def generatedNames : List String :=
  ["Record", "Promise", "AsyncGenerator", "z", "ClientConfig", "RequestOptions", "RequestParts",
    "Transport", "ApiError", "ApiClient", "ServiceClient", "DEFAULT_BASE_URL",
    "DEFAULT_TIMEOUT_MS", "parseSse", "parseNdjson"]

def isAsciiLetter (c : Char) : Bool := c.isLower || c.isUpper

def isIdentifier (s : List Char) : Bool :=
  match s with
  | [] => false
  | c :: rest =>
    (isAsciiLetter c || c == '_' || c == '$')
      && rest.all fun c => Letter.isAsciiAlnum c || c == '_' || c == '$'

/-- An object key: bare where it is an identifier, a literal otherwise. -/
def key (name : String) : String := if isIdentifier name.toList then name else quoted name

/-- A local name that is no keyword and no name of the method around it. -/
def ident (name : String) : String :=
  match name.toList with
  | [] => "_"
  | c :: _ =>
    if name ∈ reserved then name ++ "_"
    else if c.isDigit then "_" ++ name
    else name

/-- The validator of a declared type. -/
def schemaConst (name : String) : String := name ++ "Schema"

/-- Whether a schema of this name would collide with a name of the generated code. Every module is
exported again by the index, so service classes and validators of other schemas count. -/
def isTaken (m : Model) (name : String) : Bool :=
  name ∈ reserved || name ∈ generatedNames || name ∈ m.serviceClassNames
    || match Text.before? "Schema".toList name.toList with
      | some base => m.schemas.any (·.name.toList = base)
      | none => false

end ClientGen.TypeScript
