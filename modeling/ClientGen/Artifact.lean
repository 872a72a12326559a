import ClientGen.Model
import ClientGen.Text.Lines

/-! The files of a generated client, and what they are generated with. -/
namespace ClientGen

/-- Which clients are generated: one with every operation, one with a class per service, or both. -/
inductive Layout
  | flat
  | grouped
  | both
deriving DecidableEq, Repr

inductive Target
  | typescript
  | python
deriving DecidableEq, Repr

def Target.word : Target → String
  | .typescript => "typescript"
  | .python => "python"

def Target.ofWord? : String → Option Target
  | "typescript" => some .typescript
  | "python" => some .python
  | _ => none

structure Options where
  layout : Layout
  /-- Goes before the address of the document's server. -/
  baseUrl : Option String
  /-- The default timeout of a request, in seconds. -/
  timeout : Nat
  noDocs : Bool
deriving DecidableEq, Repr

/-- Documentation, unless it is left out. -/
def Options.docs (o : Options) (ls : Lines) : Lines := if o.noDocs then [] else ls

inductive Artifact
  | types
  | validators
  | runtime
  | flatClient
  | serviceClient
  | streaming
  | index
deriving DecidableEq, Repr

inductive GenerateError
  /-- A schema has a name that the generated code uses already. -/
  | reservedName (name declared : String) (target : Target)
  | mapping (e : MappingError)
deriving DecidableEq, Repr

def GenerateError.message : GenerateError → String
  | reservedName name declared target =>
    "schema `" ++ declared ++ "` is declared as `" ++ name ++ "`, a name the generated "
      ++ target.word ++ " code already uses; rename it in the mapping file"
  | mapping e => e.message

namespace Model

/-- The files of a run, in the order in which they are written. -/
def plan (m : Model) (o : Options) : List Artifact :=
  [.types, .validators, .runtime]
    ++ (if o.layout = .flat ∨ o.layout = .both then [.flatClient] else [])
    ++ (if o.layout = .grouped ∨ o.layout = .both then [.serviceClient] else [])
    ++ (if m.isStreaming then [.streaming] else [])
    ++ [.index]

/-- Fails on the first schema whose name is taken. -/
def checkTypeNames (m : Model) (target : Target) (isTaken : String → Bool) :
    Except GenerateError Unit :=
  match m.schemas.find? fun s => isTaken s.name with
  | some s => .error (.reservedName s.name s.declaredName target)
  | none => .ok ()

def defaultBaseUrl (m : Model) (o : Options) : String := (o.baseUrl.or m.baseUrl).getD ""

end Model
end ClientGen
