import ClientGen.Document.Schema
import ClientGen.Entries

/-! A document, reduced to what client generation reads. -/
namespace ClientGen

inductive Method
  | get | post | put | delete | patch | options | head | trace
deriving DecidableEq, Repr

namespace Method

/-- The order in which the operations of a path are taken. -/
def all : List Method := [.get, .post, .put, .delete, .patch, .options, .head, .trace]

def verb : Method → String
  | .get => "GET"
  | .post => "POST"
  | .put => "PUT"
  | .delete => "DELETE"
  | .patch => "PATCH"
  | .options => "OPTIONS"
  | .head => "HEAD"
  | .trace => "TRACE"

/-- The key of the operation in its path item. -/
def keyword : Method → String
  | .get => "get"
  | .post => "post"
  | .put => "put"
  | .delete => "delete"
  | .patch => "patch"
  | .options => "options"
  | .head => "head"
  | .trace => "trace"

end Method

/-- A `$ref`, or the object written in place. -/
inductive RefOr (α : Type) where
  | ref (path : String)
  | inline (value : α)
deriving DecidableEq, Repr

def RefOr.inline? {α : Type} : RefOr α → Option α
  | .inline value => some value
  | .ref _ => none

namespace Document

/-- Where a parameter travels. Only path and query parameters reach the clients. -/
inductive Location
  | query | header | path | cookie
deriving DecidableEq, Repr

structure Parameter where
  name : String
  location : Location
  description : Option String
  required : Bool
  schema : Option Schema

/-- One entry of a `content` map. -/
structure MediaType where
  schema : Option Schema
  itemSchema : Option Schema

structure Body where
  content : Entries String MediaType
  required : Bool

structure Response where
  content : Entries String MediaType

structure Operation where
  operationId : Option String
  summary : Option String
  description : Option String
  deprecated : Bool
  parameters : List (RefOr Parameter)
  requestBody : Option (RefOr Body)
  /-- By status. -/
  responses : Entries String (RefOr Response)

/-- The operations under one path, and the parameters that all of them share. -/
structure PathItem where
  parameters : List (RefOr Parameter)
  get : Option Operation
  post : Option Operation
  put : Option Operation
  delete : Option Operation
  patch : Option Operation
  options : Option Operation
  head : Option Operation
  trace : Option Operation

def PathItem.operation (item : PathItem) : Method → Option Operation
  | .get => item.get
  | .post => item.post
  | .put => item.put
  | .delete => item.delete
  | .patch => item.patch
  | .options => item.options
  | .head => item.head
  | .trace => item.trace

/-- The declared operations, in the order of `Method.all`. -/
def PathItem.operations (item : PathItem) : List (Method × Operation) :=
  Method.all.filterMap fun m => (item.operation m).map (m, ·)

/-- The sections that a `$ref` may point into. -/
structure Components where
  schemas : Entries String Schema
  responses : Entries String (RefOr Response)
  parameters : Entries String (RefOr Parameter)
  requestBodies : Entries String (RefOr Body)

def Components.empty : Components := ⟨[], [], [], []⟩

structure Info where
  title : String
  description : Option String
  version : String
deriving DecidableEq, Repr

structure Server where
  url : String
  /-- The default of each variable. -/
  defaults : Entries String String
deriving DecidableEq, Repr

end Document

structure Document where
  /-- The version of the format that the document is written in. -/
  openapi : String
  info : Document.Info
  servers : List Document.Server
  paths : Entries String Document.PathItem
  components : Option Document.Components

def Document.sections (d : Document) : Document.Components := d.components.getD .empty

/-- The schemas by name. -/
abbrev SchemaTable := Entries String Schema

end ClientGen
