import ClientGen.Artifact
import ClientGen.Python.Docstring
import ClientGen.Python.Type
import ClientGen.View

/-! Declared types in Python. -/
namespace ClientGen.Python

def fieldType (f : FieldView) : String :=
  if f.required then f.type else "NotRequired[" ++ f.type ++ "]"

def descriptionDoc (o : Options) (description : Option String) : Lines :=
  match description with
  | none | some "" => []
  | some text => o.docs ["\"\"\"" ++ docText text ++ "\"\"\"", ""]

def literal (values : List String) : String :=
  "Literal[" ++ ", ".intercalate (values.map quoted) ++ "]"

/-- Fields of a class are identifiers; a dictionary with other keys is made by a call. -/
def needsCall (d : Declaration) : Bool :=
  match d with
  | .object fields _ => !fields.all fun f => isIdentifier f.name
  | _ => false

/-- The types in calls and aliases are evaluated on import. -/
def isEager (d : Declaration) : Bool :=
  match d with
  | .synonym _ => true
  | d => needsCall d

def dictionaryCall (name : String) (fields : List FieldView) : Lines :=
  [name ++ " = TypedDict(",
    "    " ++ quoted name ++ ",",
    "    \x7b"]
    ++ Lines.indent 8 (fields.map fun f => quoted f.name ++ ": " ++ fieldType f ++ ",")
    ++ ["    \x7d,",
      ")"]

def dictionaryClass (o : Options) (v : SchemaView) (fields : List FieldView) : Lines :=
  ("class " ++ v.name ++ "(TypedDict):") ::
    Lines.indent 4
      (descriptionDoc o v.description ++ fields.map fun f => f.name ++ ": " ++ fieldType f)

/-- A typed dictionary, a literal type or an alias. -/
def typeDeclaration (m : Model) (o : Options) (s : Api.SchemaRecord) : Lines :=
  let d := m.types.declare s
  let v := SchemaView.of m.types (if isEager d then eager else annotation) s
  match v.body with
  | .object fields _ =>
    if needsCall d then dictionaryCall v.name fields else dictionaryClass o v fields
  | .enum values => [v.name ++ " = " ++ literal values]
  | .synonym target => [v.name ++ " = " ++ target]

def types (m : Model) (o : Options) : Lines :=
  [Lines.header "#" [m.info.title, m.info.version],
    "\"\"\"Type declarations for request and response payloads.\"\"\"",
    "",
    "from __future__ import annotations",
    "",
    "from typing import Any, Literal, NotRequired, TypedDict  # noqa: F401"]
    ++ m.schemas.flatMap fun s => "" :: "" :: typeDeclaration m o s

end ClientGen.Python
