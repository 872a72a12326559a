import ClientGen.Python.Declaration

/-! Pydantic models of the declared types. -/
namespace ClientGen.Python

structure ModelField where
  ident : String
  /-- The property name, where it is not the identifier. -/
  wireName : Option String
  annotation : String
  required : Bool
deriving DecidableEq, Repr

def ModelField.of (f : FieldView) : ModelField where
  ident := Python.ident f.name
  wireName := if Python.ident f.name = f.name then none else some f.name
  annotation := f.type
  required := f.required

/-- An empty alias is left out. -/
def ModelField.print (f : ModelField) : String :=
  let wireName := f.wireName.filter (!·.isEmpty)
  f.ident ++ ": " ++ f.annotation ++
    match f.required, wireName with
    | true, some name => " = Field(alias=" ++ quoted name ++ ")"
    | true, none => ""
    | false, some name => " | None = Field(default=None, alias=" ++ quoted name ++ ")"
    | false, none => " | None = None"

def modelClass (o : Options) (v : SchemaView) (fields : List FieldView)
    (additional : Option String) : Lines :=
  let extra := if additional.isSome then ", extra=\"allow\"" else ""
  ("class " ++ v.name ++ "(BaseModel):") ::
    Lines.indent 4
      (descriptionDoc o v.description
        ++ ["model_config = ConfigDict(populate_by_name=True" ++ extra ++ ")", ""]
        ++ fields.map fun f => (ModelField.of f).print)

def isModel (d : Declaration) : Bool := d matches .object _ _

/-- A model of an object; any other type is an alias, evaluated on import. -/
def validatorDeclaration (m : Model) (o : Options) (s : Api.SchemaRecord) : Lines :=
  let v := SchemaView.of m.types (if isModel (m.types.declare s) then annotation else eager) s
  match v.body with
  | .object fields additional => modelClass o v fields additional
  | .enum values => [v.name ++ " = " ++ literal values]
  | .synonym target => [v.name ++ " = " ++ target]

/-- Models that mention one another are completed once all are there. -/
def rebuildLines (m : Model) : Lines :=
  let models := m.schemas.filter fun s => isModel (m.types.declare s)
  if models.isEmpty then [] else "" :: "" :: models.map (·.name ++ ".model_rebuild()")

def validators (m : Model) (o : Options) : Lines :=
  [Lines.header "#" [],
    "\"\"\"Pydantic models for validating payloads.\"\"\"",
    "",
    "from __future__ import annotations",
    "",
    "from typing import Any, Literal  # noqa: F401",
    "",
    "from pydantic import BaseModel, ConfigDict, Field  # noqa: F401"]
    ++ (m.schemas.flatMap fun s => "" :: "" :: validatorDeclaration m o s)
    ++ rebuildLines m

end ClientGen.Python
