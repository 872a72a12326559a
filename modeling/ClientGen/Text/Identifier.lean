import ClientGen.Text.Replace
import ClientGen.Text.Words

/-! Identifiers made from arbitrary text, and made unique. -/
namespace ClientGen
open Letter

namespace Identifier

/-- Keeps ASCII letters and digits; one that follows anything else becomes a capital. -/
def sanitizeFrom : Bool → List Char → List Char
  | _, [] => []
  | capital, c :: s =>
    if isAsciiAlnum c then (if capital then c.toUpper else c) :: sanitizeFrom false s
    else sanitizeFrom true s

def sanitize (s : String) : String := String.ofList (sanitizeFrom false s.toList)

/-- The first of `base2`, `base3`, … that is not `used`; `n` is the next suffix. One more candidate
than there are used names is enough. -/
def freshFrom (used : List String) (base : String) : Nat → Nat → String
  | 0, n => base ++ toString n
  | room + 1, n =>
    if base ++ toString n ∈ used then freshFrom used base room (n + 1) else base ++ toString n

/-- The first candidate is `base` itself. -/
def fresh (used : List String) (base : String) : String :=
  if base ∈ used then freshFrom used base used.length 2 else base

end Identifier

/-- A name in every casing that generated code uses. -/
structure Name where
  /-- What the name is made from. -/
  text : String
  pascal : String
  camel : String
  snake : String
  screaming : String
deriving DecidableEq, Repr

/-- The casings of the sanitized text, or of `unnamed` where nothing of it is left. -/
def Name.ofText (s : String) : Name :=
  let kept := Identifier.sanitizeFrom false s.toList
  let letters := if kept.isEmpty then "unnamed".toList else kept
  { text := s
    pascal := String.ofList (Words.pascal letters)
    camel := String.ofList (Words.camel letters)
    snake := String.ofList (Words.snake letters)
    screaming := String.ofList (Words.screaming letters) }

/-- The class generated for a service, `PetsService` for `pets`. -/
def serviceClassName (service : String) : String := (Name.ofText service).pascal ++ "Service"

end ClientGen
