import ClientGen.Entries

/-! Shapes: the structure of a value, as far as a client can type it. -/
namespace ClientGen

mutual
inductive Shape where
  | string (values : List String) (format : Option String)
  | integer (format : Option String)
  | number (format : Option String)
  | boolean
  | array (item : Shape)
  | object (members : ObjectShape)
  /-- A schema, by its current name. -/
  | reference (name : String)
  | unknown

structure ObjectShape where
  properties : List (String × Shape)
  required : List String
  /-- What extra keys hold, `unknown` if anything. -/
  additional : Option Shape
end

def ObjectShape.empty : ObjectShape := ⟨[], [], none⟩

def Shape.plainString : Shape := .string [] none

mutual
/-- Renames every schema that is referred to. -/
def Shape.rename (r : String → String) : Shape → Shape
  | .reference name => .reference (r name)
  | .array item => .array (item.rename r)
  | .object members => .object (members.rename r)
  | .string values format => .string values format
  | .integer format => .integer format
  | .number format => .number format
  | .boolean => .boolean
  | .unknown => .unknown

def ObjectShape.rename (r : String → String) : ObjectShape → ObjectShape
  | ⟨properties, required, additional⟩ =>
    ⟨renameMembers r properties, required, renameAdditional r additional⟩

def renameMembers (r : String → String) : List (String × Shape) → List (String × Shape)
  | [] => []
  | (name, shape) :: rest => (name, shape.rename r) :: renameMembers r rest

def renameAdditional (r : String → String) : Option Shape → Option Shape
  | none => none
  | some shape => some (shape.rename r)
end

mutual
/-- Every name referred to, from left to right, with repetitions. -/
def Shape.references : Shape → List String
  | .reference name => [name]
  | .array item => item.references
  | .object members => members.references
  | .string _ _ => []
  | .integer _ => []
  | .number _ => []
  | .boolean => []
  | .unknown => []

def ObjectShape.references : ObjectShape → List String
  | ⟨properties, _, additional⟩ =>
    referencesOfMembers properties ++ referencesOfAdditional additional

def referencesOfMembers : List (String × Shape) → List String
  | [] => []
  | (_, shape) :: rest => shape.references ++ referencesOfMembers rest

def referencesOfAdditional : Option Shape → List String
  | none => []
  | some shape => shape.references
end

/-- The names referred to, each once, in order of first appearance. -/
def Shape.referenceNames (s : Shape) : List String := s.references.foldl addNew []

end ClientGen
