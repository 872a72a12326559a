import ClientGen.Document.Basic
import ClientGen.Source

/-! Reading a document, from the nodes of any text format. -/
namespace ClientGen
open Source

variable {m : Type → Type} {ν α : Type} [Monad m] [MonadLiftT Option m] [Source m ν]

/-- The path of a `$ref`. It makes a reference whatever stands beside it. -/
def refPath? (d : Data) : Option String := do
  let r ← d.members? ["$ref"]
  r.required "$ref" text?

/-- A reference, or the value written in place. The whole value is read first. -/
def RefOr.read? (inline? : Data → Option α) (v : ν) : m (RefOr α) := do
  let d ← data? v
  match refPath? d with
  | some path => return .ref path
  | none => return .inline (← inline? d)

def JsonType.words : List String :=
  ["string", "number", "integer", "boolean", "array", "object", "null"]

def JsonType.ofWord? : String → Option JsonType
  | "string" => some .string
  | "number" => some .number
  | "integer" => some .integer
  | "boolean" => some .boolean
  | "array" => some .array
  | "object" => some .object
  | "null" => some .null
  | _ => none

def JsonType.read? (d : Data) : Option JsonType := (d.word? words).bind ofWord?

def TypeSet.read? (d : Data) : Option TypeSet :=
  match JsonType.read? d with
  | some t => some (.single t)
  | none => (list? JsonType.read? d).map .several

def Constant.read? (d : Data) : Option Constant :=
  match d with
  | .text s => some (.text s)
  | .null | .number false => some .null
  | d => if d.isPlain then some .other else none

def SchemaBody.keys : List String :=
  ["type", "format", "description", "properties", "required", "additionalProperties", "items",
    "allOf", "oneOf", "anyOf", "enum", "const"]

/-- Reads a schema that nests no deeper than the steps given. -/
def Schema.readWithin? : Nat → Data → Option Schema
  | 0, _ => none
  | n + 1, d =>
    match refPath? d with
    | some path => some (.ref path)
    | none => do
      let r ← record? SchemaBody.keys d
      let schemas := list? (Schema.readWithin? n)
      let additional (d : Data) : Option (Additional Schema) :=
        match d with
        | .flag b => some (.flag b)
        | d => (Schema.readWithin? n d).map .schema
      return .inline {
        type := ← r.optional "type" TypeSet.read?
        format := ← r.optional "format" text?
        description := ← r.optional "description" text?
        properties := ← r.defaulted "properties" [] (map? (Schema.readWithin? n))
        required := ← r.defaulted "required" [] (list? text?)
        additional := (← r.optional "additionalProperties" additional).getD .absent
        items := ← r.optional "items" (Schema.readWithin? n)
        allOf := ← r.defaulted "allOf" [] schemas
        oneOf := ← r.defaulted "oneOf" [] schemas
        anyOf := ← r.defaulted "anyOf" [] schemas
        enum := ← r.defaulted "enum" [] (list? Constant.read?)
        const := ← r.optional "const" Constant.read? }

def Schema.read? (v : ν) : m Schema := do
  let d ← data? v
  return ← Schema.readWithin? (d.depth + 1) d

namespace Document

def MediaType.read? (v : ν) : m MediaType := do
  let r ← record? ["schema", "itemSchema"] v
  return ⟨← r.optional "schema" Schema.read?, ← r.optional "itemSchema" Schema.read?⟩

def content? (v : ν) : m (Entries String MediaType) := map? MediaType.read? v

def Location.ofWord? : String → Option Location
  | "query" => some .query
  | "header" => some .header
  | "path" => some .path
  | "cookie" => some .cookie
  | _ => none

def Location.read? (d : Data) : Option Location :=
  (d.word? ["query", "header", "path", "cookie"]).bind ofWord?

def Parameter.read? (d : Data) : Option Parameter := do
  let r ← record? ["name", "in", "description", "required", "schema"] d
  return {
    name := ← r.required "name" text?
    location := ← r.required "in" Location.read?
    description := ← r.optional "description" text?
    required := ← r.defaulted "required" false flag?
    schema := ← r.optional "schema" Schema.read? }

def Body.read? (d : Data) : Option Body := do
  let r ← record? ["content", "required"] d
  return ⟨← r.defaulted "content" [] content?, ← r.defaulted "required" false flag?⟩

def Response.read? (d : Data) : Option Response := do
  let r ← record? ["content"] d
  return ⟨← r.defaulted "content" [] content?⟩

def responses? (v : ν) : m (Entries String (RefOr Response)) :=
  map? (RefOr.read? Response.read?) v

def parameters? (v : ν) : m (List (RefOr Parameter)) := list? (RefOr.read? Parameter.read?) v

def Operation.read? (v : ν) : m Operation := do
  let r ← record? ["operationId", "summary", "description", "deprecated", "parameters",
    "requestBody", "responses"] v
  return {
    operationId := ← r.optional "operationId" text?
    summary := ← r.optional "summary" text?
    description := ← r.optional "description" text?
    deprecated := ← r.defaulted "deprecated" false flag?
    parameters := ← r.defaulted "parameters" [] parameters?
    requestBody := ← r.optional "requestBody" (RefOr.read? Body.read?)
    responses := ← r.defaulted "responses" [] responses? }

def PathItem.read? (v : ν) : m PathItem := do
  let r ← record? ("parameters" :: Method.all.map Method.keyword) v
  let operation (m : Method) := r.optional m.keyword Operation.read?
  return {
    parameters := ← r.defaulted "parameters" [] parameters?
    get := ← operation .get
    post := ← operation .post
    put := ← operation .put
    delete := ← operation .delete
    patch := ← operation .patch
    options := ← operation .options
    head := ← operation .head
    trace := ← operation .trace }

def Components.read? (v : ν) : m Components := do
  let r ← record? ["schemas", "responses", "parameters", "requestBodies"] v
  return {
    schemas := ← r.defaulted "schemas" [] (map? Schema.read?)
    responses := ← r.defaulted "responses" [] responses?
    parameters := ← r.defaulted "parameters" [] (map? (RefOr.read? Parameter.read?))
    requestBodies := ← r.defaulted "requestBodies" [] (map? (RefOr.read? Body.read?)) }

def Info.read? (v : ν) : m Info := do
  let r ← record? ["title", "description", "version"] v
  return {
    title := ← r.required "title" text?
    description := ← r.optional "description" text?
    version := ← r.required "version" text? }

def variableDefault? (v : ν) : m String := do (← record? ["default"] v).required "default" text?

def Server.read? (v : ν) : m Server := do
  let r ← record? ["url", "variables"] v
  return ⟨← r.required "url" text?, ← r.defaulted "variables" [] (map? variableDefault?)⟩

end Document

def Document.read? (v : ν) : m Document := do
  let r ← record? ["openapi", "info", "servers", "paths", "components"] v
  return {
    openapi := ← r.required "openapi" text?
    info := ← r.required "info" Document.Info.read?
    servers := ← r.defaulted "servers" [] (list? Document.Server.read?)
    paths := ← r.defaulted "paths" [] (map? Document.PathItem.read?)
    components := ← r.optional "components" Document.Components.read? }

end ClientGen
