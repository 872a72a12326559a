import ClientGen.Api.Basic
import ClientGen.Json.Printer
import ClientGen.Json.Reader

/-! Mapping tables: the names and services that a user gives to operations and schemas. -/
namespace ClientGen
open Source

/-- A new method name, or a method of a named service. -/
inductive OperationMapping
  | method (name : String)
  | service (service method : String)
deriving DecidableEq, Repr

namespace OperationMapping

def methodName : OperationMapping → String
  | method name => name
  | service _ name => name

def serviceName? : OperationMapping → Option String
  | method _ => none
  | service name _ => some name

def toValue : OperationMapping → Value
  | method name => .text name
  | service name m => .object [("service", .text name), ("method", .text m)]

def ofData? : Data → Option OperationMapping
  | .text name => some (.method name)
  | d => do
    let r ← d.members? ["service", "method"]
    return .service (← r.required "service" text?) (← r.required "method" text?)

end OperationMapping

/-- By the identifiers that were extracted. -/
structure MappingTable where
  operations : Entries String OperationMapping
  schemas : Entries String String
deriving DecidableEq, Repr

namespace MappingTable

def empty : MappingTable := ⟨[], []⟩

/-- Maps every operation and schema to itself. -/
def identity (api : Api) : MappingTable where
  operations := Entries.ofList (api.operations.map fun op => (op.extractedId, .method op.extractedId))
  schemas := Entries.ofList (api.schemas.map fun s => (s.declaredName, s.declaredName))

def operation (t : MappingTable) (extractedId : String) : Option OperationMapping :=
  Entries.get? t.operations extractedId

def schema (t : MappingTable) (declaredName : String) : Option String :=
  Entries.get? t.schemas declaredName

def toValue (t : MappingTable) : Value :=
  .object [
    ("operations", .object (t.operations.map fun (id, m) => (id, m.toValue))),
    ("schemas", .object (t.schemas.map fun (name, target) => (name, .text target)))]

/-- The text of a mapping file. -/
def toText (t : MappingTable) : String := t.toValue.toJson ++ "\n"

def read? (n : Json.Node) : Option MappingTable := do
  let r ← record? ["operations", "schemas"] n
  return {
    operations := ← r.defaulted "operations" [] (map? fun n => (data? n).bind OperationMapping.ofData?)
    schemas := ← r.defaulted "schemas" [] (map? text?) }

/-- A text that cannot be read counts as an empty table. -/
def ofText (text : String) : MappingTable := ((Json.Node.ofText? text).bind read?).getD empty

end MappingTable
end ClientGen
