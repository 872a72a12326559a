import ClientGen.Shape.Basic

/-! Signatures: a compact text for the structure of a shape. -/
namespace ClientGen

/-- By code point. -/
def sortTexts (texts : List String) : List String := texts.mergeSort fun a b => a ≤ b

mutual
/-- Members and enum values are sorted, so their order does not matter; formats and required sets
are left out. -/
def Shape.signature : Shape → String
  | .string [] _ => "string"
  | .string (v :: vs) _ => "enum(" ++ "|".intercalate (sortTexts (v :: vs)) ++ ")"
  | .integer _ => "integer"
  | .number _ => "number"
  | .boolean => "boolean"
  | .array item => "array<" ++ item.signature ++ ">"
  | .object members => members.signature
  | .reference name => "ref:" ++ name
  | .unknown => "unknown"

def ObjectShape.signature : ObjectShape → String
  | ⟨properties, _, additional⟩ =>
    "object\x7b" ++ ",".intercalate (sortTexts (memberSignatures properties))
      ++ signatureOfAdditional additional ++ "\x7d"

/-- Every member as `name:signature`. -/
def memberSignatures : List (String × Shape) → List String
  | [] => []
  | (name, shape) :: rest => (name ++ ":" ++ shape.signature) :: memberSignatures rest

def signatureOfAdditional : Option Shape → String
  | none => ""
  | some shape => "|*:" ++ shape.signature
end

end ClientGen
