import ClientGen.Document.Basic
import ClientGen.Document.Reference

/-! Resolution of the references of a document. Parameters, bodies and responses are put in place;
schema references stay, and are only checked to name a schema. -/
namespace ClientGen

/-- Fails on the first reference that does not name an entry of the table. -/
def SchemaTable.checkReference (table : SchemaTable) (path : String) : Except ReferenceError Unit := do
  let name ← Reference.target "schemas" path
  if Entries.has table name then return () else throw (.missing path)

mutual
/-- Looks at every schema within: properties, items, parts, variants, additional properties. -/
def Schema.check (table : SchemaTable) : Schema → Except ReferenceError Unit
  | .ref path => table.checkReference path
  | .inline b => b.check table

def SchemaBody.check (table : SchemaTable) : SchemaBody → Except ReferenceError Unit
  | ⟨_, _, _, properties, _, additional, items, allOf, oneOf, anyOf, _, _⟩ => do
    checkMembers table properties
    checkItems table items
    checkParts table allOf
    checkParts table oneOf
    checkParts table anyOf
    checkAdditional table additional

def checkMembers (table : SchemaTable) : List (String × Schema) → Except ReferenceError Unit
  | [] => .ok ()
  | (_, s) :: rest => do s.check table; checkMembers table rest

def checkItems (table : SchemaTable) : Option Schema → Except ReferenceError Unit
  | none => .ok ()
  | some s => s.check table

def checkParts (table : SchemaTable) : List Schema → Except ReferenceError Unit
  | [] => .ok ()
  | s :: rest => do s.check table; checkParts table rest

def checkAdditional (table : SchemaTable) : Additional Schema → Except ReferenceError Unit
  | .schema s => s.check table
  | _ => .ok ()
end

namespace Document

/-- Follows references through one section. Every step but the last names a new entry, so one step
more than there are entries is enough. -/
def followFrom {α : Type} (expected : String) (entries : Entries String (RefOr α)) :
    Nat → List String → RefOr α → Except ReferenceError α
  | _, _, .inline value => .ok value
  | 0, _, .ref path => .error (.circular path)
  | steps + 1, seen, .ref path => do
    if path ∈ seen then throw (.circular path)
    let name ← Reference.target expected path
    match Entries.get? entries name with
    | none => throw (.missing path)
    | some next => followFrom expected entries steps (path :: seen) next

def follow {α : Type} (expected : String) (entries : Entries String (RefOr α)) (value : RefOr α) :
    Except ReferenceError α :=
  followFrom expected entries (entries.length + 1) [] value

namespace Components

def checkContent (c : Components) (content : Entries String MediaType) :
    Except ReferenceError Unit :=
  content.forM fun (_, media) => do
    media.schema.forM (Schema.check c.schemas)
    media.itemSchema.forM (Schema.check c.schemas)

def resolveParameter (c : Components) (p : RefOr Parameter) :
    Except ReferenceError (RefOr Parameter) := do
  let inline ← follow "parameters" c.parameters p
  inline.schema.forM (Schema.check c.schemas)
  return .inline inline

def resolveBody (c : Components) (b : RefOr Body) : Except ReferenceError (RefOr Body) := do
  let inline ← follow "requestBodies" c.requestBodies b
  c.checkContent inline.content
  return .inline inline

def resolveResponse (c : Components) (r : RefOr Response) :
    Except ReferenceError (RefOr Response) := do
  let inline ← follow "responses" c.responses r
  c.checkContent inline.content
  return .inline inline

def resolveOperation (c : Components) (op : Operation) : Except ReferenceError Operation := do
  let parameters ← op.parameters.mapM c.resolveParameter
  let requestBody ← op.requestBody.mapM c.resolveBody
  let responses ← op.responses.mapM fun (status, r) => return (status, ← c.resolveResponse r)
  return { op with parameters, requestBody, responses }

def resolvePathItem (c : Components) (item : PathItem) : Except ReferenceError PathItem := do
  let parameters ← item.parameters.mapM c.resolveParameter
  let get ← item.get.mapM c.resolveOperation
  let post ← item.post.mapM c.resolveOperation
  let put ← item.put.mapM c.resolveOperation
  let delete ← item.delete.mapM c.resolveOperation
  let patch ← item.patch.mapM c.resolveOperation
  let options ← item.options.mapM c.resolveOperation
  let head ← item.head.mapM c.resolveOperation
  let trace ← item.trace.mapM c.resolveOperation
  return { parameters, get, post, put, delete, patch, options, head, trace }

end Components

/-- The document with nothing but schema references left in its paths, all of which are known to name
a schema. -/
def resolve (d : Document) : Except ReferenceError Document := do
  let c := d.sections
  let paths ← d.paths.mapM fun (path, item) => return (path, ← c.resolvePathItem item)
  c.schemas.forM fun (_, schema) => schema.check c.schemas
  return { d with paths }

end Document
end ClientGen
