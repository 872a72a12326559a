import ClientGen.Mapping.Rename

/-! Operations by service. -/
namespace ClientGen
open Api (Operation)

/-- The group of the operations that no service was given. -/
def defaultService : String := "default"

abbrev Groups := Entries String (List Operation)

namespace Groups

def serviceOf (t : MappingTable) (op : Operation) : Except MappingError String :=
  match (t.operation op.extractedId).bind OperationMapping.serviceName? with
  | some service => Identifier.checked op.extractedId service
  | none => .ok defaultService

/-- Puts an operation at the end of its group, where its identifier must be new. -/
def add (groups : Groups) (service : String) (op : Operation) : Except MappingError Groups :=
  let members := (Entries.get? groups service).getD []
  match members.find? (·.id = op.id) with
  | some first =>
    .error (.duplicateMethod service op.id first.extractedId op.extractedId)
  | none => .ok (Entries.put groups service (members ++ [op]))

/-- Groups in order of first appearance, each with its operations in order. -/
def ofOperations (t : MappingTable) (operations : List Operation) : Except MappingError Groups :=
  operations.foldlM (fun groups op => do groups.add (← serviceOf t op) op) []

end Groups
end ClientGen
