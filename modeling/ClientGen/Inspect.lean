import ClientGen.Value
import ClientGen.Types.Fingerprint

/-! A summary of what was extracted from a document. -/
namespace ClientGen

def Declaration.kind : Declaration → String
  | .object _ _ => "object"
  | .enum _ => "enum"
  | .synonym _ => "alias"

namespace Inspect

def optionalText (s : Option String) : Value := s.elim .null .text

def texts (ss : List String) : Value := .list (ss.map .text)

/-- Members are in the order of their keys. -/
def schema (m : TypeMap) (s : Api.SchemaRecord) : Value :=
  .object [("kind", .text (m.declare s).kind), ("name", .text s.name)]

def describe (m : TypeMap) (shape : Shape) : String := (m.typeOf shape).describe

def operation (m : TypeMap) (op : Api.Operation) : Value :=
  .object [
    ("body", optionalText (op.body.map fun b => describe m b.shape)),
    ("id", .text op.id),
    ("method", .text op.method.verb),
    ("path", .text op.path),
    ("path_params", texts (op.pathParams.map (·.name))),
    ("query_params", texts (op.queryParams.map (·.name))),
    ("response", optionalText (op.response.map (describe m))),
    ("streaming", optionalText (op.stream.map (·.kind.word)))]

end Inspect

def Api.summary (api : Api) (mode : FingerprintMode) : Value :=
  let m := TypeMap.ofSchemas mode api.schemas
  .object [
    ("base_url", Inspect.optionalText api.baseUrl),
    ("info", .object [("title", .text api.info.title), ("version", .text api.info.version)]),
    ("operations", .list (api.operations.map (Inspect.operation m))),
    ("schemas", .list (api.schemas.map (Inspect.schema m)))]

end ClientGen
