import ClientGen.Artifact
import ClientGen.TypeScript.Block
import ClientGen.TypeScript.Comment
import ClientGen.TypeScript.Type
import ClientGen.View

/-! Declared types in TypeScript, and their zod validators. -/
namespace ClientGen.TypeScript

/-- An interface, a union of literals or an alias. -/
def typeDeclaration (v : SchemaView) : Lines :=
  match v.body with
  | .object fields additional =>
    block ("export interface " ++ v.name)
      ((fields.map fun f => key f.name ++ (if f.required then "" else "?") ++ ": " ++ f.type ++ ";")
        ++ (if additional.isSome then ["[key: string]: unknown;"] else []))
  | .enum values =>
    ["export type " ++ v.name ++ " = " ++ " | ".intercalate (values.map quoted) ++ ";"]
  | .synonym target => ["export type " ++ v.name ++ " = " ++ target ++ ";"]

def descriptionComment (o : Options) (description : Option String) : Lines :=
  match description with
  | none | some "" => []
  | some text => o.docs ["/** " ++ comment text ++ " */"]

def types (m : Model) (o : Options) : Lines :=
  let views := m.schemas.map (SchemaView.of m.types type)
  [Lines.header "//" [m.info.title, m.info.version], ""]
    ++ Lines.apart (views.map fun v => descriptionComment o v.description ++ typeDeclaration v)

/-- The constant that validates a declared type. -/
def validatorDeclaration (v : SchemaView) : Lines :=
  let head := "export const " ++ schemaConst v.name ++ ": z.ZodType<" ++ v.name ++ "> = "
  match v.body with
  | .object fields additional =>
    let field (f : FieldView) : String :=
      key f.name ++ ": " ++ f.type ++ (if f.required then "" else ".optional()") ++ ","
    [head ++ "z", "  .object(\x7b"] ++ Lines.indent 4 (fields.map field) ++ ["  \x7d)"]
      ++ [match additional with
          | some value => "  .catchall(" ++ value ++ ");"
          | none => "  .passthrough();"]
  | .enum values => [head ++ "z.enum([" ++ ", ".intercalate (values.map quoted) ++ "]);"]
  | .synonym target => [head ++ target ++ ";"]

def validators (m : Model) : Lines :=
  let views := m.schemas.map (SchemaView.of m.types validator)
  let imports := "import \x7b z \x7d from \"zod\";" ::
    (if m.schemas.isEmpty then []
      else "import type \x7b" :: Lines.indent 2 (m.schemas.map (·.name ++ ","))
        ++ ["\x7d from \"./types\";"])
  Lines.apart ([Lines.header "//" []] :: imports :: views.map validatorDeclaration)

end ClientGen.TypeScript
