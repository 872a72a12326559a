import ClientGen.Python.Client
import ClientGen.Python.Runtime
import ClientGen.Python.Streaming
import ClientGen.Python.Validator

/-! The files of a Python package. -/
namespace ClientGen.Python

def fileName : Artifact → String
  | .types => "types.py"
  | .validators => "schemas.py"
  | .runtime => "runtime.py"
  | .flatClient => "client.py"
  | .serviceClient => "services.py"
  | .streaming => "streaming.py"
  | .index => "__init__.py"

/-- The names that each module of the package adds to those of the runtime, where it is planned. -/
def plannedExports (m : Model) (o : Options) : List (String × List String) :=
  let plan := m.plan o
  [(Artifact.flatClient, ".client", ["ApiClient"]),
    (.serviceClient, ".services", ["ServiceClient"]),
    (.streaming, ".streaming", ["iter_ndjson", "iter_sse"])].filterMap
    fun (a, module, names) => if a ∈ plan then some (module, names) else none

/-- Every name that the package exports. -/
def exports (m : Model) (o : Options) : List String :=
  ["schemas", "ApiClientConfig", "ApiError", "Transport"]
    ++ (plannedExports m o).flatMap Prod.snd ++ m.schemas.map (·.name)

def index (m : Model) (o : Options) : Lines :=
  [Lines.header "#" [m.info.title],
    "",
    "from . import schemas",
    "from .runtime import ApiClientConfig, ApiError, Transport"]
    ++ ((plannedExports m o).flatMap fun (module, names) => importFrom module names)
    ++ (if m.schemas.isEmpty then []
        else "from .types import (" :: Lines.indent 4 (m.schemas.map (·.name ++ ",")) ++ [")"])
    ++ ["", "__all__ = ["]
    ++ Lines.indent 4 ((exports m o).map fun name => quoted name ++ ",")
    ++ ["]"]

/-- The lines of a file; no schema may have a name that is taken. -/
def render (m : Model) (o : Options) (a : Artifact) : Except GenerateError Lines := do
  m.checkTypeNames .python (isTaken m)
  match a with
  | .types => return types m o
  | .validators => return validators m o
  | .runtime => return runtime m o
  | .flatClient => (flatClient m o).mapError .mapping
  | .serviceClient => (serviceClient m o).mapError .mapping
  | .streaming => return streaming
  | .index => return index m o

end ClientGen.Python
