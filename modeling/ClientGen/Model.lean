import ClientGen.Mapping.Grouping
import ClientGen.Types.Fingerprint

/-! What is rendered: renamed operations and schemas, their groups, and the types of the run. -/
namespace ClientGen
open Api (Operation SchemaRecord)

structure Model where
  info : Document.Info
  baseUrl : Option String
  schemas : List SchemaRecord
  operations : List Operation
  groups : Groups
  types : TypeMap

/-- What a run is to do. -/
inductive Prepared where
  /-- There is no mapping yet: write this table and stop. -/
  | bootstrap (table : MappingTable)
  | ready (model : Model)

/-- The model under a mapping. -/
def Api.model (api : Api) (table : MappingTable) (mode : FingerprintMode) :
    Except MappingError Model := do
  let (operations, schemas) ← table.apply api.operations api.schemas
  let groups ← Groups.ofOperations table operations
  return {
    info := api.info
    baseUrl := api.baseUrl
    schemas
    operations
    groups
    types := TypeMap.ofSchemas mode schemas }

def Api.prepare (api : Api) (table : Option MappingTable) (mode : FingerprintMode) :
    Except MappingError Prepared :=
  match table with
  | none => .ok (.bootstrap (.identity api))
  | some table => (api.model table mode).map .ready

namespace Model

def isStreaming (m : Model) : Bool := m.operations.any Operation.isStreaming

/-- The operations that are methods of the grouped client itself. -/
def rootOperations (m : Model) : List Operation := (Entries.get? m.groups defaultService).getD []

def namedGroups (m : Model) : Groups := m.groups.filter fun group => group.1 ≠ defaultService

def serviceClassNames (m : Model) : List String := m.namedGroups.keys.map serviceClassName

/-- The first operation whose identifier an earlier one has, with that one. -/
def repeatedId? : List Operation → List Operation → Option (Operation × Operation)
  | _, [] => none
  | seen, op :: rest =>
    match seen.find? (·.id = op.id) with
    | some first => some (first, op)
    | none => repeatedId? (op :: seen) rest

/-- All operations as methods of one client, which needs distinct identifiers. -/
def flatOperations (m : Model) : Except MappingError (List Operation) :=
  match repeatedId? [] m.operations with
  | some (first, second) =>
    .error (.duplicateMethod "client" second.id first.extractedId second.extractedId)
  | none => .ok m.operations

/-- The named services. No root method may share its name with the accessor of a service. -/
def services (m : Model) : Except MappingError Groups :=
  let clash := m.rootOperations.findSome? fun op =>
    (m.namedGroups.find? fun group => (Name.ofText group.1).camel = (Name.ofText op.id).camel).map
      (op, ·)
  match clash with
  | some (op, (service, _)) =>
    .error (.duplicateMethod defaultService op.id op.extractedId ("service " ++ service))
  | none => .ok m.namedGroups

end Model
end ClientGen
