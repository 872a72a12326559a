import ClientGen.Artifact
import ClientGen.TypeScript.Block
import ClientGen.TypeScript.Comment
import ClientGen.TypeScript.Type
import ClientGen.View

/-! Methods of the TypeScript clients. -/
namespace ClientGen.TypeScript

structure Parameter where
  ident : String
  optional : Bool
  type : String
deriving DecidableEq, Repr

def Parameter.print (p : Parameter) : String :=
  p.ident ++ (if p.optional then "?" else "") ++ ": " ++ p.type

/-- What a method hands to the transport. -/
structure RequestParts where
  /-- The name in the URL template, and the parameter that holds the value. -/
  pathParams : List (String × String)
  query : Bool
  body : Bool
deriving DecidableEq, Repr

structure ClientMethod where
  name : String
  parameters : List Parameter
  /-- The type of the result, or of one element of a stream. -/
  result : String
  verb : String
  path : String
  parts : RequestParts
  stream : Option Api.StreamKind
  /-- The lines of the documentation comment. -/
  docs : Lines
  /-- The declared types that the signature mentions. -/
  namedTypes : List String
deriving DecidableEq, Repr

/-- The function that decodes a stream. -/
def decoder : Api.StreamKind → String
  | .sse => "parseSse"
  | .ndjson => "parseNdjson"

def pathParameter (p : ParamView) : Parameter := ⟨ident p.ident.camel, false, p.type⟩

/-- The query parameters travel as one object. -/
def queryParameter (ps : List ParamView) : Parameter where
  ident := "query"
  optional := ps.all (!·.required)
  type := braces "; " (ps.map fun p =>
    key p.name ++ (if p.required then "" else "?") ++ ": " ++ p.type)

/-- Path parameters, then a required body or query object, then the optional ones and `options`. -/
def parameters (v : OperationView) : List Parameter :=
  let others := (v.body.map fun b => ⟨"body", !b.required, b.type⟩).toList
    ++ (if v.queryParams.isEmpty then [] else [queryParameter v.queryParams])
    ++ [⟨"options", true, "RequestOptions"⟩]
  v.pathParams.map pathParameter ++ others.filter (!·.optional) ++ others.filter (·.optional)

def requestParts (v : OperationView) : RequestParts where
  pathParams := v.pathParams.map fun p => (p.name, ident p.ident.camel)
  query := !v.queryParams.isEmpty
  body := v.body.isSome

def RequestParts.print (r : RequestParts) : String :=
  let pairs := r.pathParams.map fun (name, value) => key name ++ ": " ++ value
  let parts := (if pairs.isEmpty then [] else ["pathParams: " ++ braces ", " pairs])
    ++ (if r.query then ["query"] else []) ++ (if r.body then ["body"] else [])
  if parts.isEmpty then "\x7b\x7d" else braces ", " parts

/-- Summary and description, where they are not empty, and whether the operation is deprecated. -/
def documentation (v : OperationView) : Lines :=
  let texts := (v.summary.toList ++ v.description.toList).filter (!·.isEmpty)
  let body := texts.map comment ++ (if v.deprecated then ["@deprecated"] else [])
  if body.isEmpty then [] else ["/**"] ++ body.map (" * " ++ ·) ++ [" */"]

namespace ClientMethod

def ofView (v : OperationView) : ClientMethod where
  name := ident v.name.camel
  parameters := TypeScript.parameters v
  result := match v.stream with
    | some s => s.item
    | none => v.response.type?.getD "void"
  verb := v.method.verb
  path := v.path
  parts := requestParts v
  stream := v.stream.map (·.kind)
  docs := documentation v
  namedTypes := v.namedTypes

def of (m : Model) (op : Api.Operation) : ClientMethod :=
  ofView (.of m.types type op)

def signature (c : ClientMethod) : String := ", ".intercalate (c.parameters.map Parameter.print)

/-- The arguments of the transport's functions. -/
def request (c : ClientMethod) : String :=
  quoted c.verb ++ ", " ++ quoted c.path ++ ", " ++ c.parts.print ++ ", options"

def body (c : ClientMethod) : Lines :=
  match c.stream with
  | some kind =>
    block ("async *" ++ c.name ++ "(" ++ c.signature ++ "): AsyncGenerator<" ++ c.result ++ ">")
      ["const response = await this.transport.stream(" ++ c.request ++ ", "
          ++ quoted kind.mediaType ++ ");",
        "yield* " ++ decoder kind ++ "<" ++ c.result ++ ">(response, options?.signal);"]
  | none =>
    block ("async " ++ c.name ++ "(" ++ c.signature ++ "): Promise<" ++ c.result ++ ">")
      ["return this.transport.request<" ++ c.result ++ ">(" ++ c.request ++ ");"]

def lines (o : Options) (c : ClientMethod) : Lines := o.docs c.docs ++ c.body

end ClientMethod
end ClientGen.TypeScript
