import ClientGen.Text.Blank

/-! Text within a triple-quoted docstring. -/
namespace ClientGen.Python

def escapeDoc (c : Char) : List Char :=
  if c = '\\' then ['\\', '\\'] else if c = '"' then ['\\', '"'] else [c]

/-- Without blanks at the ends; every quote and backslash is escaped. -/
def docText (s : String) : String :=
  String.ofList ((Text.trimBlank s.toList).flatMap escapeDoc)

end ClientGen.Python
