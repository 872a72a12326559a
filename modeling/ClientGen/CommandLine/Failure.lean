import ClientGen.Config
import ClientGen.Document.Load
import ClientGen.Workspace

/-! How a command can fail, and the report of it. -/
namespace ClientGen.CommandLine

inductive Failure
  | config
  | configUnread (e : FileError)
  | configUnwritten (e : FileError)
  | configExists
  | unread (path : String) (e : FileError)
  | document (path : String) (e : LoadError)
  | mapping (e : MappingError)
  | generate (target : Target) (e : GenerateError)
  | unwritten (path : String) (e : FileError)
  | folder (path : String) (e : FileError)
deriving DecidableEq, Repr

namespace Failure

/-- The failure to load a document, from its outermost cause. -/
def ofLoad : LoadError → List String
  | .unreadable format => [(LoadError.unreadable format).message, "not a document"]
  | .unsupportedVersion version => [(LoadError.unsupportedVersion version).message]
  | .reference e => [(LoadError.reference e).message, e.message]

/-- What failed, and the causes of it, each of the one before. -/
def chain : Failure → List String
  | config => ["failed to parse config " ++ Config.path ++ ":"]
  | configUnread e => ["failed to read config " ++ Config.path ++ ": " ++ e.message]
  | configUnwritten e => [e.message]
  | configExists => [Config.path ++ " already exists. Use --force to overwrite."]
  | unread path e =>
    ["failed to load " ++ path, "failed to read " ++ path ++ ": " ++ e.message, e.message]
  | document path e => ("failed to load " ++ path) :: ofLoad e
  | mapping e => [e.message]
  | generate target e => ["failed to generate the " ++ target.word ++ " client", e.message]
  | unwritten path e => ["failed to write " ++ path, e.message]
  | folder path e => ["failed to create output directory " ++ path, e.message]

/-- The later lines of a text are indented. -/
def indentLater (margin : String) (text : String) : String :=
  String.ofList (text.toList.flatMap fun c => if c = '\n' then '\n' :: margin.toList else [c])

/-- Several causes are numbered. -/
def causeLines : List String → List String
  | [] => []
  | [cause] => ["    " ++ indentLater "    " cause]
  | causes => causes.mapIdx fun n cause =>
    "    " ++ toString n ++ ": " ++ indentLater "       " cause

def report (f : Failure) : String :=
  match f.chain with
  | [] => ""
  | [top] => "Error: " ++ top ++ "\n"
  | top :: causes => "Error: " ++ top ++ "\n\nCaused by:\n" ++ Lines.text (causeLines causes)

end Failure
end ClientGen.CommandLine
