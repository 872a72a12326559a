import ClientGen.Text.Lines

/-! Blocks of TypeScript. -/
namespace ClientGen.TypeScript

/-- A block in braces, indented by two spaces. -/
def block (head : String) (body : Lines) : Lines :=
  (head ++ " \x7b") :: Lines.indent 2 body ++ ["\x7d"]

/-- A block with another one after its closing brace. -/
def blocks (head : String) (body : Lines) (next : String) (nextBody : Lines) : Lines :=
  (head ++ " \x7b") :: Lines.indent 2 body ++ block ("\x7d " ++ next) nextBody

/-- The parts of a list in braces, on one line. -/
def braces (separator : String) (parts : List String) : String :=
  "\x7b " ++ separator.intercalate parts ++ " \x7d"

end ClientGen.TypeScript
