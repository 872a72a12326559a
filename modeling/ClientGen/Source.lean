import ClientGen.Data
import ClientGen.Entries

/-! What a reader can ask of a node of a text format, and records made of its members. -/
namespace ClientGen

/-- The known fields of a node, written either as members or as a list of values in order. -/
structure Record (ν : Type) where
  fields : List (String × ν)
  listed : Bool

/-- Nodes that are read in `m`, which says how reading can fail. -/
class Source (m : outParam (Type → Type)) (ν : Type) where
  text? : ν → m String
  flag? : ν → m Bool
  /-- The node itself, or what it stands for; nothing where it says that there is no value. -/
  present? : ν → m (Option ν)
  items? : ν → m (List ν)
  /-- Every member in order, repetitions included. -/
  entries? : ν → m (List (String × ν))
  /-- The fields of the given names. -/
  record? : List String → ν → m (Record ν)
  /-- The whole value, with everything within. -/
  data? : ν → m Data

namespace Record
variable {m : Type → Type} {ν α : Type}

def fieldName? (names : List String) : Key → Option (Option String)
  | .name s => some (if s ∈ names then some s else none)
  | .place n => some names[n]?
  | .other => none

/-- Unknown keys are passed over; a field given twice makes the record unreadable. -/
def fieldsOf? (names : List String) : List (Key × ν) → Option (List (String × ν))
  | [] => some []
  | (key, v) :: rest => do
    let fields ← fieldsOf? names rest
    match ← fieldName? names key with
    | none => some fields
    | some name => if fields.any (·.1 = name) then none else some ((name, v) :: fields)

def ofMembers? (names : List String) (members : List (Key × ν)) : Option (Record ν) :=
  (fieldsOf? names members).map (⟨·, false⟩)

/-- Values may be missing at the end only. -/
def ofItems? (names : List String) (items : List ν) : Option (Record ν) :=
  if items.length ≤ names.length then some ⟨names.zip items, true⟩ else none

def field? (r : Record ν) (name : String) : Option ν :=
  (r.fields.find? (·.1 = name)).map Prod.snd

section
variable [Monad m] [MonadLiftT Option m]

def required (r : Record ν) (name : String) (read : ν → m α) : m α := do
  read (← r.field? name)

/-- A list of values must give every optional field that it reaches or passes. -/
def optional [Source m ν] (r : Record ν) (name : String) (read : ν → m α) : m (Option α) :=
  match r.field? name with
  | none => if r.listed then liftM (none : Option (Option α)) else pure none
  | some v => do
    match ← Source.present? v with
    | none => return none
    | some v => return some (← read v)

def defaulted (r : Record ν) (name : String) (default : α) (read : ν → m α) : m α :=
  match r.field? name with
  | none => pure default
  | some v => read v

end
end Record

namespace Source
variable {m : Type → Type} {ν α : Type} [Monad m] [Source m ν]

def list? (read : ν → m α) (v : ν) : m (List α) := do (← items? v).mapM read

/-- A repeated key keeps its first place and takes its last value. -/
def map? (read : ν → m α) (v : ν) : m (Entries String α) := do
  let members ← entries? v
  let read ← members.mapM fun (key, v) => do return (key, ← read v)
  return Entries.ofList read

end Source

namespace Data

def entryNames? : List (Key × Data) → Option (List (String × Data))
  | [] => some []
  | (.name s, d) :: rest => (entryNames? rest).map ((s, d) :: ·)
  | _ => none

instance : Source Option Data where
  text?
    | .text s => some s
    | _ => none
  flag?
    | .flag b => some b
    | _ => none
  present? d := some (if d matches .null then none else some d)
  items?
    | .list items => some items
    | _ => none
  entries?
    | .map members => entryNames? members
    | _ => none
  record? names
    | .map members => Record.ofMembers? names members
    | .list items => Record.ofItems? names items
    | _ => none
  data? := some

/-- The fields of a value written as members. -/
def members? (names : List String) : Data → Option (Record Data)
  | .map members => Record.ofMembers? names members
  | _ => none

/-- One of the given words, or the word as the only key of a map to `null`. -/
def word? (words : List String) : Data → Option String
  | .text s => if s ∈ words then some s else none
  | .map [(.name s, .null)] => if s ∈ words then some s else none
  | .map [(.place n, .null)] => words[n]?
  | _ => none

end Data
end ClientGen
