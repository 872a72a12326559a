import ClientGen.TypeScript.Client
import ClientGen.TypeScript.Declaration
import ClientGen.TypeScript.Runtime
import ClientGen.TypeScript.Streaming

/-! The files of a TypeScript package. -/
namespace ClientGen.TypeScript

def fileName : Artifact → String
  | .types => "types.ts"
  | .validators => "schemas.ts"
  | .runtime => "runtime.ts"
  | .flatClient => "client.ts"
  | .serviceClient => "services.ts"
  | .streaming => "streaming.ts"
  | .index => "index.ts"

/-- Exports everything that is planned. -/
def index (m : Model) (o : Options) : Lines :=
  let plan := m.plan o
  let planned (a : Artifact) (line : String) : Lines := if a ∈ plan then [line] else []
  [Lines.header "//" [],
    "",
    "export * from \"./types\";",
    "export * from \"./schemas\";",
    "export * from \"./runtime\";"]
    ++ planned .flatClient "export \x7b ApiClient \x7d from \"./client\";"
    ++ planned .serviceClient "export * from \"./services\";"
    ++ planned .streaming "export \x7b parseNdjson, parseSse \x7d from \"./streaming\";"

/-- The lines of a file; no schema may have a name that is taken. -/
def render (m : Model) (o : Options) (a : Artifact) : Except GenerateError Lines := do
  m.checkTypeNames .typescript (isTaken m)
  match a with
  | .types => return types m o
  | .validators => return validators m
  | .runtime => return runtime m o
  | .flatClient => (flatClient m o).mapError .mapping
  | .serviceClient => (serviceClient m o).mapError .mapping
  | .streaming => return streaming
  | .index => return index m o

end ClientGen.TypeScript
