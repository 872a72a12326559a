import ClientGen.Document.Basic
import ClientGen.Document.Reference
import ClientGen.Shape.Basic

/-! The shape of a schema. References stay references; the schema table is consulted only to
merge the parts of `allOf`. What cannot be classified becomes `unknown`. -/
namespace ClientGen

/-- The texts that `enum` lists; `null` is passed over and any other value makes it unusable. -/
def stringEnum : List Constant → Option (List String)
  | [] => some []
  | .text s :: rest => (stringEnum rest).map (s :: ·)
  | .null :: rest => stringEnum rest
  | .other :: _ => none

/-- A required name may be declared by another part than the one that requires it. -/
def ObjectShape.dropUndeclared (o : ObjectShape) : ObjectShape :=
  { o with required := o.required.filter fun name => Entries.has o.properties name }

namespace SchemaTable

/-- The body of a schema that is written in place. -/
def body? (table : SchemaTable) (name : String) : Option SchemaBody :=
  match Entries.get? table name with
  | some (.inline b) => some b
  | _ => none

end SchemaTable

namespace SchemaBody

/-- What the schema itself declares, put over what `o` has: a property replaces an earlier one in
place, and the first declaration of additional properties stays. -/
def mergeOwn? (shape? : Schema → Option Shape) (b : SchemaBody) (o : ObjectShape) :
    Option ObjectShape := do
  let properties ← b.properties.foldlM
    (fun ps member => (shape? member.2).map (Entries.put ps member.1)) o.properties
  let additional ← match o.additional, b.additional with
    | some a, _ => some (some a)
    | none, .flag true => some (some .unknown)
    | none, .schema s => (shape? s).map some
    | none, _ => some none
  return ⟨properties, b.required.foldl addNew o.required, additional⟩

def itemsShape? (shape? : Schema → Option Shape) (b : SchemaBody) : Option Shape :=
  match b.items with
  | some s => shape? s
  | none => some .unknown

def objectShape? (shape? : Schema → Option Shape) (b : SchemaBody) : Option ObjectShape :=
  (b.mergeOwn? shape? .empty).map ObjectShape.dropUndeclared

/-- The only variant that does not stand for `null`; `oneOf` goes before `anyOf`. -/
def onlyVariant (b : SchemaBody) : Option Schema :=
  match (if b.oneOf.isEmpty then b.anyOf else b.oneOf).filter (!·.isNullOnly) with
  | [only] => some only
  | _ => none

/-- A schema with neither parts nor variants. -/
def plainShape? (shape? : Schema → Option Shape) (b : SchemaBody) : Option Shape :=
  match stringEnum b.enum with
  | some (v :: vs) => some (.string (v :: vs) b.format)
  | _ =>
    match b.const with
    | some (.text s) => some (.string [s] b.format)
    | _ =>
      match b.type with
      | none =>
        if !b.properties.isEmpty || (b.additional matches .flag _ | .schema _) then
          (b.objectShape? shape?).map .object
        else if b.items.isSome then (b.itemsShape? shape?).map .array
        else some .unknown
      | some types =>
        match types.nonNull with
        | some .string => some (.string [] b.format)
        | some .integer => some (.integer b.format)
        | some .number => some (.number b.format)
        | some .boolean => some .boolean
        | some .array => (b.itemsShape? shape?).map .array
        | some .object => (b.objectShape? shape?).map .object
        | _ => some .unknown

end SchemaBody

mutual
/-- The shape, if the steps given are enough to find it. -/
def Schema.shape? (table : SchemaTable) : Nat → Schema → Option Shape
  | 0, _ => none
  | _ + 1, .ref path => some ((Reference.schemaName? path).elim .unknown .reference)
  | n + 1, .inline b =>
    match b.allOf with
    | [] =>
      if b.oneOf.isEmpty && b.anyOf.isEmpty then b.plainShape? (Schema.shape? table n)
      else b.onlyVariant.elim (some .unknown) (Schema.shape? table n)
    | [only] =>
      if b.properties.isEmpty && b.required.isEmpty then Schema.shape? table n only
      else (SchemaBody.merge? table n [] b .empty).map (.object ·.dropUndeclared)
    | _ => (SchemaBody.merge? table n [] b .empty).map (.object ·.dropUndeclared)

/-- Merges the parts of `allOf`, then what the schema itself declares. `path` holds the schemas
being merged: a part that leads back to one of them is passed over. -/
def SchemaBody.merge? (table : SchemaTable) :
    Nat → List String → SchemaBody → ObjectShape → Option ObjectShape
  | 0, _, _, _ => none
  | n + 1, path, b, o => do
    let merged ← b.allOf.foldlM (fun o part => match part with
      | .inline inner => SchemaBody.merge? table n path inner o
      | .ref ref =>
        match Reference.schemaName? ref with
        | none => some o
        | some name =>
          if name ∈ path then some o
          else match table.body? name with
            | none => some o
            | some target => SchemaBody.merge? table n (name :: path) target o) o
    b.mergeOwn? (Schema.shape? table n) merged
end

/-- Enough for every schema of nesting `depth`, unless a schema merges itself again below one of
its own members: a merge passes each table entry at most once before it reaches a member, and the
members nest no deeper than the entries do. -/
def SchemaTable.steps (table : SchemaTable) (depth : Nat) : Nat :=
  let deepest := max depth (depthOfMembers table) + 2
  2 * (table.length + 2) * (table.length + 2) * deepest

/-- The shape of a schema. Where the conversion never ends, which `steps` finds out, nothing is known of it: what
rests on this is told of the conversion only where it ends. -/
def Schema.shape (table : SchemaTable) (s : Schema) : Shape :=
  (s.shape? table (table.steps s.depth)).getD .unknown

/-- Nothing is known where no schema is given. -/
def shapeOfOptional (table : SchemaTable) (s : Option Schema) : Shape :=
  s.elim .unknown (Schema.shape table)

end ClientGen
