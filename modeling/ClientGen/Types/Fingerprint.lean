import ClientGen.Api.Basic
import ClientGen.Shape.Signature
import ClientGen.Types.Basic

/-! Fingerprints: texts by which inline objects are recognised as declared schemas. -/
namespace ClientGen

/-- What goes into a fingerprint: property names alone, or their signatures too. -/
inductive FingerprintMode
  | names
  | typed
deriving DecidableEq, Repr

/-- Sorted members, each after a unit separator but the first. An object without properties has none. -/
def ObjectShape.fingerprint (mode : FingerprintMode) (o : ObjectShape) : Option String :=
  if o.properties.isEmpty then none
  else
    let members := match mode with
      | .names => o.properties.map Prod.fst
      | .typed => memberSignatures o.properties
    some ("\x1f".intercalate (sortTexts members))

/-- The schemas of a run by fingerprint. -/
structure TypeMap where
  mode : FingerprintMode
  byFingerprint : Entries String String

namespace TypeMap
open Api (SchemaRecord)

/-- A fingerprint that is already there keeps the schema declared first. -/
def add (m : TypeMap) (record : SchemaRecord) : TypeMap :=
  match record.shape with
  | .object o =>
    match o.fingerprint m.mode with
    | some key =>
      if Entries.has m.byFingerprint key then m
      else { m with byFingerprint := m.byFingerprint ++ [(key, record.name)] }
    | none => m
  | _ => m

def ofSchemas (mode : FingerprintMode) (schemas : List SchemaRecord) : TypeMap :=
  schemas.foldl add ⟨mode, []⟩

/-- The declared schema that an object folds onto. -/
def lookup (m : TypeMap) (o : ObjectShape) : Option String :=
  (o.fingerprint m.mode).bind (Entries.get? m.byFingerprint)

mutual
/-- The type of a shape. Objects fold onto declared schemas; others are maps or open objects. -/
def typeOf (m : TypeMap) : Shape → TypeExpr
  | .string [] _ => .string
  | .string (v :: vs) _ => .enum (v :: vs)
  | .integer _ => .integer
  | .number _ => .number
  | .boolean => .boolean
  | .array item => .array (m.typeOf item)
  | .object o => m.typeOfObject o
  | .reference name => .named name
  | .unknown => .unknown

def typeOfObject (m : TypeMap) : ObjectShape → TypeExpr
  | ⟨properties, required, additional⟩ =>
    match m.lookup ⟨properties, required, additional⟩ with
    | some name => .named name
    | none => m.typeOfExtra additional

def typeOfExtra (m : TypeMap) : Option Shape → TypeExpr
  | some value => .map (m.typeOf value)
  | none => .openObject
end

/-- How a schema is declared. Inline objects within it fold like any other. -/
def declare (m : TypeMap) (record : SchemaRecord) : Declaration :=
  match record.shape with
  | .object o =>
    if o.properties.isEmpty then .synonym (m.typeOf record.shape)
    else .object (o.properties.map fun (name, shape) => ⟨name, m.typeOf shape, name ∈ o.required⟩)
      (o.additional.map m.typeOf)
  | .string (v :: vs) _ => .enum (v :: vs)
  | shape => .synonym (m.typeOf shape)

end TypeMap
end ClientGen
