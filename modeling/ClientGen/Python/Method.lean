import ClientGen.Artifact
import ClientGen.Python.Docstring
import ClientGen.Python.Type
import ClientGen.View

/-! Methods of the Python clients. -/
namespace ClientGen.Python

structure Argument where
  ident : String
  type : String
  /-- Whether it may be left out. -/
  optional : Bool
deriving DecidableEq, Repr

def Argument.print (a : Argument) : String :=
  a.ident ++ ": " ++ a.type ++ (if a.optional then " | None = None" else "")

structure ClientMethod where
  name : String
  positional : List Argument
  keyword : List Argument
  /-- The names in the URL template, with the arguments that hold their values. -/
  pathParams : List (String × String)
  query : List (String × String)
  body : Bool
  /-- The type of the result, or of one element of a stream. -/
  result : String
  verb : String
  path : String
  stream : Option Api.StreamKind
  docstring : Option String
  /-- The declared types that the signature mentions. -/
  namedTypes : List String
deriving DecidableEq, Repr

/-- The function that decodes a stream. -/
def decoder : Api.StreamKind → String
  | .sse => "iter_sse"
  | .ndjson => "iter_ndjson"

/-- Names for arguments; one that is `used` gets a number. -/
def argumentNames (used : List String) : List String → List String
  | [] => []
  | name :: rest =>
    let base := ident name
    let free := if base ∈ used then Identifier.freshFrom used (base ++ "_") used.length 2 else base
    free :: argumentNames (free :: used) rest

/-- The path parameters with their argument names, and the query parameters with theirs. -/
def namedParameters (v : OperationView) : List (ParamView × String) × List (ParamView × String) :=
  let params := v.pathParams ++ v.queryParams
  let named := params.zip (argumentNames [] (params.map (·.name)))
  (named.take v.pathParams.length, named.drop v.pathParams.length)

/-- Summary, description and a note on deprecation, as paragraphs. -/
def docstring (v : OperationView) : Option String :=
  let texts := ((v.summary.toList ++ v.description.toList).map docText).filter (!·.isEmpty)
  match texts ++ (if v.deprecated then ["Deprecated."] else []) with
  | [] => none
  | [text] => some text
  | paragraphs => some ("\n\n        ".intercalate paragraphs ++ "\n        ")

namespace ClientMethod

def ofView (v : OperationView) : ClientMethod :=
  let (pathParams, query) := namedParameters v
  let argument (p : ParamView × String) : Argument := ⟨p.2, p.1.type, !p.1.required⟩
  let body : List Argument := (v.body.map fun b => ⟨"body", b.type, !b.required⟩).toList
  let named := query.map argument
  { name := ident v.name.snake
    positional := pathParams.map (fun p => ⟨p.2, p.1.type, false⟩) ++ body.filter (!·.optional)
    keyword := named.filter (!·.optional) ++ (named ++ body).filter (·.optional)
    pathParams := pathParams.map fun p => (p.1.name, p.2)
    query := query.map fun p => (p.1.name, p.2)
    body := v.body.isSome
    result := match v.stream with
      | some s => s.item
      | none => v.response.type?.getD "None"
    verb := v.method.verb
    path := v.path
    stream := v.stream.map (·.kind)
    docstring := Python.docstring v
    namedTypes := v.namedTypes }

def of (m : Model) (op : Api.Operation) : ClientMethod :=
  ofView (.of m.types annotation op)

/-- The names after the star can only be given by name. -/
def signature (c : ClientMethod) : String :=
  ", ".intercalate <| "self" :: c.positional.map Argument.print
    ++ (if c.keyword.isEmpty then [] else "*" :: c.keyword.map Argument.print)

def returnType (c : ClientMethod) : String :=
  if c.stream.isSome then "Iterator[" ++ c.result ++ "]" else c.result

def mapping (pairs : List (String × String)) : String :=
  "\x7b" ++ ", ".intercalate (pairs.map fun (name, value) => quoted name ++ ": " ++ value) ++ "\x7d"

/-- The arguments of the transport's functions. -/
def request (c : ClientMethod) : String :=
  quoted c.verb ++ ", " ++ quoted c.path
    ++ (if c.pathParams.isEmpty then "" else ", path_params=" ++ mapping c.pathParams)
    ++ (if c.query.isEmpty then "" else ", query=" ++ mapping c.query)
    ++ (if c.body then ", body=body" else "")

def lines (o : Options) (c : ClientMethod) : Lines :=
  ("def " ++ c.name ++ "(" ++ c.signature ++ ") -> " ++ c.returnType ++ ":") ::
    Lines.indent 4
      (o.docs (c.docstring.toList.map fun text => "\"\"\"" ++ text ++ "\"\"\"")
        ++ match c.stream with
          | some kind =>
            ["response = self._transport.stream(" ++ c.request ++ ", accept="
                ++ quoted kind.mediaType ++ ")",
              "yield from " ++ decoder kind ++ "(response)"]
          | none => ["return self._transport.request(" ++ c.request ++ ")"])

end ClientMethod
end ClientGen.Python
