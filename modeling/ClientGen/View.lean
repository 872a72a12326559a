import ClientGen.Model

/-! Operations and schemas with their types written in a target's syntax. -/
namespace ClientGen

/-- How a target writes a type. -/
abbrev TypeWriter := TypeExpr → String

structure ParamView where
  /-- The name in requests. -/
  name : String
  ident : Name
  type : String
  required : Bool
  description : Option String
deriving DecidableEq, Repr

structure BodyView where
  type : String
  required : Bool
deriving DecidableEq, Repr

inductive ResponseView
  | empty
  | typed (type : String)
  /-- An array of a declared type. -/
  | list (type item : String)
deriving DecidableEq, Repr

def ResponseView.type? : ResponseView → Option String
  | empty => none
  | typed type => some type
  | list type _ => some type

structure StreamView where
  kind : Api.StreamKind
  item : String
deriving DecidableEq, Repr

structure OperationView where
  name : Name
  extractedId : String
  method : Method
  path : String
  pathParams : List ParamView
  queryParams : List ParamView
  body : Option BodyView
  response : ResponseView
  stream : Option StreamView
  summary : Option String
  description : Option String
  deprecated : Bool
  /-- The declared types that the signature mentions. -/
  namedTypes : List String
deriving DecidableEq, Repr

/-- The types of an operation's shapes: path, query, body, response, stream. -/
def TypeMap.typesOf (m : TypeMap) (op : Api.Operation) : List TypeExpr := op.shapes.map m.typeOf

def ParamView.of (m : TypeMap) (write : TypeWriter) (p : Api.Parameter) : ParamView :=
  ⟨p.name, Name.ofText p.name, write (m.typeOf p.shape), p.required, p.description⟩

def ResponseView.of (write : TypeWriter) : Option TypeExpr → ResponseView
  | none => empty
  | some (.array (.named name)) => list (write (.array (.named name))) (write (.named name))
  | some type => typed (write type)

def OperationView.of (m : TypeMap) (write : TypeWriter) (op : Api.Operation) : OperationView where
  name := Name.ofText op.id
  extractedId := op.extractedId
  method := op.method
  path := op.path
  pathParams := op.pathParams.map (.of m write)
  queryParams := op.queryParams.map (.of m write)
  body := op.body.map fun b => ⟨write (m.typeOf b.shape), b.required⟩
  response := .of write (op.response.map m.typeOf)
  stream := op.stream.map fun s => ⟨s.kind, write (m.typeOf s.item)⟩
  summary := op.summary
  description := op.description
  deprecated := op.deprecated
  namedTypes := ((m.typesOf op).filterMap TypeExpr.name?).foldl addNew []

structure FieldView where
  name : String
  ident : Name
  type : String
  required : Bool
deriving DecidableEq, Repr

inductive SchemaBodyView
  | object (fields : List FieldView) (additional : Option String)
  | enum (values : List String)
  | synonym (target : String)
deriving DecidableEq, Repr

structure SchemaView where
  name : String
  description : Option String
  body : SchemaBodyView
deriving DecidableEq, Repr

def SchemaBodyView.of (write : TypeWriter) : Declaration → SchemaBodyView
  | .object fields additional =>
    object (fields.map fun f => ⟨f.name, Name.ofText f.name, write f.type, f.required⟩)
      (additional.map write)
  | .enum values => enum values
  | .synonym type => synonym (write type)

def SchemaView.of (m : TypeMap) (write : TypeWriter) (s : Api.SchemaRecord) : SchemaView :=
  ⟨s.name, s.description, .of write (m.declare s)⟩

/-- The declared types that several operations mention, in order of first appearance. -/
def namedTypes (views : List OperationView) : List String :=
  (views.flatMap (·.namedTypes)).foldl addNew []

end ClientGen
