import ClientGen.Document.Basic
import ClientGen.Entries
import ClientGen.Text.Identifier

/-! URL templates: their placeholders, and the identifiers made from them. -/
namespace ClientGen.Route

/-- The texts between each `\x7b` and the next `\x7d` after it. `open?` holds the text read since the
brace was opened, reversed. -/
def placeholdersFrom : Option (List Char) → List Char → List (List Char)
  | _, [] => []
  | none, c :: s => placeholdersFrom (if c = '\x7b' then some [] else none) s
  | some name, c :: s =>
    if c = '\x7d' then name.reverse :: placeholdersFrom none s
    else placeholdersFrom (some (c :: name)) s

/-- The non-empty names among them, each once. -/
def placeholders (path : String) : List String :=
  ((placeholdersFrom none path.toList).filter (!·.isEmpty)).foldl
    (fun names name => addNew names (String.ofList name)) []

/-- A segment that is a placeholder becomes `By` and its name. -/
def segmentWord (segment : List Char) : List Char :=
  let word (s : List Char) := Words.pascal (Identifier.sanitizeFrom false s)
  match segment with
  | '\x7b' :: inner =>
    match Text.before? ['\x7d'] inner with
    | some name => "By".toList ++ word name
    | none => word segment
  | _ => word segment

/-- The lower-case method, then every segment in turn: `getUsersById` for GET `/users/\x7bid\x7d`. -/
def operationId (method : Method) (path : String) : String :=
  String.ofList <| method.keyword.toList ++
    (((path.toList.splitOn '/').filter (!·.isEmpty)).map segmentWord).flatten

end ClientGen.Route
