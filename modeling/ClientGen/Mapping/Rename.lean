import ClientGen.Mapping.Error
import ClientGen.Mapping.Table
import ClientGen.Text.Identifier

/-! Renaming of operations and schemas. Names are decided from the declared names, and references are
followed from the current ones, so only the last table that was applied matters. -/
namespace ClientGen
open Api (Operation SchemaRecord)

namespace Identifier

/-- A name that nobody chose: `filler` where nothing is left, and before a leading digit. -/
def repaired (value filler : String) : String :=
  let s := sanitize value
  match s.toList with
  | [] => filler
  | c :: _ => if c.isDigit then filler ++ s else s

/-- A name that was chosen must be usable as it stands. -/
def checked (subject value : String) : Except MappingError String :=
  let s := sanitize value
  match s.toList with
  | [] => .error (.emptyIdentifier subject value)
  | c :: _ => if c.isDigit then .error (.invalidIdentifier subject value) else .ok s

end Identifier

/-- The new names of schemas, by their current names, and who claimed which chosen name. -/
structure Renaming where
  names : Entries String String
  claimed : Entries String String

namespace Renaming

def empty : Renaming := ⟨[], []⟩

def apply (r : Renaming) (name : String) : String := (Entries.get? r.names name).getD name

/-- The name that the table gives to a schema, unless it is the declared one. -/
def target? (t : MappingTable) (s : SchemaRecord) : Option String :=
  (t.schema s.declaredName).filter (· ≠ s.declaredName)

/-- Takes the chosen names, each for one schema only. -/
def choose (t : MappingTable) : List SchemaRecord → Renaming → Except MappingError Renaming
  | [], r => .ok r
  | s :: rest, r =>
    match target? t s with
    | none => choose t rest r
    | some target => do
      let name ← Identifier.checked s.declaredName target
      match Entries.get? r.claimed name with
      | some first => throw (.duplicateSchema name first s.declaredName)
      | none =>
        choose t rest
          ⟨Entries.put r.names s.name name, Entries.put r.claimed name s.declaredName⟩

/-- Repairs all other names, which must not meet a chosen one; `used` holds the names given so far. -/
def repair : List SchemaRecord → List String → Renaming → Except MappingError Renaming
  | [], _, r => .ok r
  | s :: rest, used, r =>
    if Entries.has r.names s.name then repair rest used r
    else
      let base := Identifier.repaired s.declaredName "Schema"
      match Entries.get? r.claimed base with
      | some first => .error (.duplicateSchema base first s.declaredName)
      | none =>
        let name := Identifier.fresh used base
        repair rest (name :: used) { r with names := Entries.put r.names s.name name }

def ofTable (t : MappingTable) (schemas : List SchemaRecord) : Except MappingError Renaming := do
  let chosen ← choose t schemas empty
  repair schemas chosen.claimed.keys chosen

end Renaming

namespace Api

def SchemaRecord.rename (r : String → String) (s : SchemaRecord) : SchemaRecord :=
  { s with name := r s.name, shape := s.shape.rename r }

/-- The new identifiers of operations; `used` holds the repaired ones given so far. -/
def renamedIds (t : MappingTable) : List Operation → List String → Except MappingError (List String)
  | [], _ => .ok []
  | op :: rest, used =>
    match ((t.operation op.extractedId).map OperationMapping.methodName).filter
        (· ≠ op.extractedId) with
    | some method => do
      let id ← Identifier.checked op.extractedId method
      return id :: (← renamedIds t rest used)
    | none => do
      let id := Identifier.fresh used (Identifier.repaired op.extractedId "op")
      return id :: (← renamedIds t rest (id :: used))

end Api

/-- Applies the renames of a table. -/
def MappingTable.apply (t : MappingTable) (operations : List Operation)
    (schemas : List SchemaRecord) : Except MappingError (List Operation × List SchemaRecord) := do
  let r ← Renaming.ofTable t schemas
  let ids ← Api.renamedIds t operations []
  let renamed := operations.zipWith (fun op id => { op.renameReferences r.apply with id }) ids
  return (renamed, schemas.map (·.rename r.apply))

end ClientGen
