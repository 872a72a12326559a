import ClientGen.TypeScript.Name

/-! Types in TypeScript, and the zod expressions that validate them. -/
namespace ClientGen.TypeScript

/-- An array of a text that holds a bar is put in parentheses. -/
def type : TypeExpr → String
  | .string => "string"
  | .enum values => " | ".intercalate (values.map quoted)
  | .integer => "number"
  | .number => "number"
  | .boolean => "boolean"
  | .array item =>
    let inner := type item
    if '|' ∈ inner.toList then "(" ++ inner ++ ")[]" else inner ++ "[]"
  | .named name => name
  | .map value => "Record<string, " ++ type value ++ ">"
  | .openObject => "Record<string, unknown>"
  | .unknown => "unknown"

/-- Declared types are looked up late, so the order of declarations does not matter. -/
def validator : TypeExpr → String
  | .string => "z.string()"
  | .enum values => "z.enum([" ++ ", ".intercalate (values.map quoted) ++ "])"
  | .integer => "z.number().int()"
  | .number => "z.number()"
  | .boolean => "z.boolean()"
  | .array item => "z.array(" ++ validator item ++ ")"
  | .named name => "z.lazy(() => " ++ schemaConst name ++ ")"
  | .map value => "z.record(z.string(), " ++ validator value ++ ")"
  | .openObject => "z.record(z.string(), z.unknown())"
  | .unknown => "z.unknown()"

end ClientGen.TypeScript
