/-! Schemas as a document writes them, reduced to the keywords that shape a client type. -/
namespace ClientGen

inductive JsonType
  | string | number | integer | boolean | array | object | null
deriving DecidableEq, Repr

/-- The value of `type`: one keyword, or a list of them. -/
inductive TypeSet
  | single (t : JsonType)
  | several (ts : List JsonType)
deriving DecidableEq, Repr

/-- The declared type once `null` is dropped, if exactly one is left. -/
def TypeSet.nonNull : TypeSet → Option JsonType
  | .single .null => none
  | .single t => some t
  | .several ts =>
    match ts.filter (· ≠ .null) with
    | [t] => some t
    | _ => none

/-- A value listed by `enum` or given by `const`. Only texts and `null` matter to a client. -/
inductive Constant
  | text (s : String)
  | null
  | other
deriving DecidableEq, Repr

/-- The value of `additionalProperties`. -/
inductive Additional (σ : Type) where
  | absent
  | flag (allowed : Bool)
  | schema (s : σ)

mutual
inductive Schema where
  | ref (path : String)
  | inline (body : SchemaBody)

structure SchemaBody where
  type : Option TypeSet
  format : Option String
  description : Option String
  properties : List (String × Schema)
  required : List String
  additional : Additional Schema
  items : Option Schema
  allOf : List Schema
  oneOf : List Schema
  anyOf : List Schema
  enum : List Constant
  const : Option Constant
end

/-- The schema that says nothing. -/
def SchemaBody.empty : SchemaBody where
  type := none
  format := none
  description := none
  properties := []
  required := []
  additional := .absent
  items := none
  allOf := []
  oneOf := []
  anyOf := []
  enum := []
  const := none

/-- Admits `null` alone: `type: null`, typically one arm of a nullable `oneOf`. -/
def SchemaBody.isNullOnly (b : SchemaBody) : Bool :=
  b.type = some (.single .null) && b.properties.isEmpty

def Schema.isNullOnly : Schema → Bool
  | .ref _ => false
  | .inline b => b.isNullOnly

mutual
/-- How deep schemas are nested. -/
def Schema.depth : Schema → Nat
  | .ref _ => 1
  | .inline b => b.depth + 1

def SchemaBody.depth : SchemaBody → Nat
  | ⟨_, _, _, properties, _, additional, items, allOf, oneOf, anyOf, _, _⟩ =>
    max (depthOfMembers properties) <| max (depthOfAdditional additional) <|
      max (depthOfItems items) <| max (depthOfParts allOf) <|
        max (depthOfParts oneOf) (depthOfParts anyOf)

def depthOfMembers : List (String × Schema) → Nat
  | [] => 0
  | (_, s) :: rest => max s.depth (depthOfMembers rest)

def depthOfAdditional : Additional Schema → Nat
  | .schema s => s.depth
  | _ => 0

def depthOfItems : Option Schema → Nat
  | some s => s.depth
  | none => 0

def depthOfParts : List Schema → Nat
  | [] => 0
  | s :: rest => max s.depth (depthOfParts rest)
end

end ClientGen
