import ClientGen.Document.Basic
import ClientGen.Shape.Basic

/-! What is extracted from a document: operations and schemas, with their shapes. -/
namespace ClientGen
namespace Api

structure Parameter where
  name : String
  required : Bool
  shape : Shape
  description : Option String

structure Body where
  required : Bool
  shape : Shape

inductive StreamKind
  | sse
  | ndjson
deriving DecidableEq, Repr

def StreamKind.word : StreamKind → String
  | .sse => "sse"
  | .ndjson => "ndjson"

def StreamKind.mediaType : StreamKind → String
  | .sse => "text/event-stream"
  | .ndjson => "application/x-ndjson"

structure Stream where
  kind : StreamKind
  /-- The shape of one element. -/
  item : Shape

structure Operation where
  /-- The identifier after renaming; it becomes the method name. -/
  id : String
  /-- The identifier as extracted, by which mappings are looked up. -/
  extractedId : String
  method : Method
  path : String
  summary : Option String
  description : Option String
  deprecated : Bool
  pathParams : List Parameter
  queryParams : List Parameter
  body : Option Body
  /-- Absent when no successful status declares a supported body. -/
  response : Option Shape
  stream : Option Stream

structure SchemaRecord where
  /-- The name after renaming. -/
  name : String
  /-- The name as declared, by which mappings are looked up. -/
  declaredName : String
  description : Option String
  shape : Shape

def Operation.isStreaming (op : Operation) : Bool := op.stream.isSome

/-- The shapes that an operation carries. -/
def Operation.shapes (op : Operation) : List Shape :=
  op.pathParams.map (·.shape) ++ op.queryParams.map (·.shape) ++ (op.body.map (·.shape)).toList
    ++ op.response.toList ++ (op.stream.map (·.item)).toList

def Parameter.rename (r : String → String) (p : Parameter) : Parameter :=
  { p with shape := p.shape.rename r }

/-- Renames the schemas that the operation refers to. -/
def Operation.renameReferences (r : String → String) (op : Operation) : Operation :=
  { op with
    pathParams := op.pathParams.map (Parameter.rename r)
    queryParams := op.queryParams.map (Parameter.rename r)
    body := op.body.map fun b => { b with shape := b.shape.rename r }
    response := op.response.map (Shape.rename r)
    stream := op.stream.map fun s => { s with item := s.item.rename r } }

end Api

structure Api where
  info : Document.Info
  /-- The address of the first server. -/
  baseUrl : Option String
  operations : List Api.Operation
  schemas : List Api.SchemaRecord

end ClientGen
