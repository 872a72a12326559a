import ClientGen.Api.Response
import ClientGen.Api.Route
import ClientGen.Document.Server

/-! Extraction of the operations and schemas of a document. It never fails. -/
namespace ClientGen
namespace Extract
open Document (Location PathItem MediaType)
open Api (SchemaRecord classify)

/-- By location and name, operation level after path level; references are passed over. -/
def declaredParameters (pathLevel operationLevel : List (RefOr Document.Parameter)) :
    Entries (Location × String) Document.Parameter :=
  Entries.ofList <| ((pathLevel ++ operationLevel).filterMap RefOr.inline?).map
    fun p => ((p.location, p.name), p)

/-- One parameter for every placeholder; one that is not declared is a plain string. -/
def pathParameters (table : SchemaTable)
    (declared : Entries (Location × String) Document.Parameter) (path : String) : List Api.Parameter :=
  (Route.placeholders path).map fun name =>
    match Entries.get? declared (.path, name) with
    | some p => ⟨name, true, p.schema.elim .plainString (Schema.shape table), p.description⟩
    | none => ⟨name, true, .plainString, none⟩

def queryParameters (table : SchemaTable)
    (declared : Entries (Location × String) Document.Parameter) : List Api.Parameter :=
  (declared.values.filter (·.location = .query)).map fun p =>
    ⟨p.name, p.required, shapeOfOptional table p.schema, p.description⟩

/-- The JSON body; other media types and unresolved references are passed over. -/
def requestBody (table : SchemaTable) (body : Option (RefOr Document.Body)) : Option Api.Body := do
  let inline ← body.bind RefOr.inline?
  let json ← MediaType.find? inline.content MediaType.json
  return ⟨inline.required, shapeOfOptional table json.schema⟩

/-- One operation of a path, under an identifier that is already unique. -/
def operationRecord (table : SchemaTable) (path : String) (item : PathItem) (id : String)
    (method : Method) (op : Document.Operation) : Api.Operation :=
  let declared := declaredParameters item.parameters op.parameters
  let response := classify table op.responses
  { id
    extractedId := id
    method
    path
    summary := op.summary
    description := op.description
    deprecated := op.deprecated
    pathParams := pathParameters table declared path
    queryParams := queryParameters table declared
    body := requestBody table op.requestBody
    response := response.shape
    stream := response.stream }

/-- Every operation of a document, path by path. -/
def endpoints (paths : Entries String PathItem) :
    List (String × PathItem × Method × Document.Operation) :=
  paths.flatMap fun (path, item) => item.operations.map fun (method, op) => (path, item, method, op)

/-- The `operationId`, or an identifier made from the route. -/
def baseId (path : String) (method : Method) (op : Document.Operation) : String :=
  op.operationId.getD (Route.operationId method path)

/-- Each text made unique among those before it. -/
def uniqueFrom (used : List String) : List String → List String
  | [] => []
  | base :: rest =>
    let id := Identifier.fresh used base
    id :: uniqueFrom (used ++ [id]) rest

def uniqueIds (bases : List String) : List String := uniqueFrom [] bases

def operations (table : SchemaTable) (paths : Entries String PathItem) : List Api.Operation :=
  let found := endpoints paths
  let ids := uniqueIds (found.map fun (path, _, method, op) => baseId path method op)
  found.zipWith (fun (path, item, method, op) id => operationRecord table path item id method op) ids

def schemaRecord (table : SchemaTable) (name : String) (schema : Schema) : SchemaRecord where
  name := name
  declaredName := name
  description := match schema with
    | .inline b => b.description
    | .ref _ => none
  shape := schema.shape table

def schemas (table : SchemaTable) : List SchemaRecord :=
  table.map fun (name, schema) => schemaRecord table name schema

end Extract

def Document.extract (d : Document) : Api where
  info := d.info
  baseUrl := d.servers.head?.map Document.Server.resolvedUrl
  operations := Extract.operations d.sections.schemas d.paths
  schemas := Extract.schemas d.sections.schemas

end ClientGen
