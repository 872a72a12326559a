import ClientGen.Text.Blank
import ClientGen.Text.Replace

/-! Text within a documentation comment. -/
namespace ClientGen.TypeScript

/-- On one line, and without the mark that ends a comment. -/
def comment (s : String) : String :=
  let safe := Text.replace "*/".toList "*\\/".toList s.toList
  let kept := ((Text.lines safe).map Text.trimBlank).filter (!·.isEmpty)
  String.ofList ([' '].intercalate kept)

end ClientGen.TypeScript
