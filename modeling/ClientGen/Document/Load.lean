import ClientGen.Document.Read
import ClientGen.Document.Resolve
import ClientGen.Json.Reader
import ClientGen.Yaml.Reader

/-! Loading a document: reading its text, checking its version, resolving its references. -/
namespace ClientGen

inductive Format
  | json
  | yaml
deriving DecidableEq, Repr

inductive LoadError
  /-- The text is not of the format, or not a document. -/
  | unreadable (format : Format)
  | unsupportedVersion (version : String)
  | reference (e : ReferenceError)
deriving DecidableEq, Repr

namespace LoadError

def message : LoadError → String
  | unreadable .json => "failed to parse JSON:"
  | unreadable .yaml => "failed to parse YAML:"
  | unsupportedVersion version =>
    "unsupported OpenAPI version: " ++ version ++ " (expected 3.0.x or 3.1.x)"
  | reference e => "document failed validation: " ++ e.message

end LoadError

namespace Document

def isSupported (version : String) : Bool :=
  "3.0".toList.isPrefixOf version.toList || "3.1".toList.isPrefixOf version.toList

def checkVersion (d : Document) : Except LoadError Document :=
  if isSupported d.openapi then .ok d else .error (.unsupportedVersion d.openapi)

def ofText? : Format → String → Option Document
  | .json, text => (Json.Node.ofText? text).bind Document.read?
  | .yaml, text => (Yaml.Node.ofText? text).bind (·.read? Document.read?)

def parse (format : Format) (text : String) : Except LoadError Document :=
  match ofText? format text with
  | some d => d.checkVersion
  | none => .error (.unreadable format)

def resolved (d : Document) : Except LoadError Document := d.resolve.mapError .reference

def load (format : Format) (text : String) : Except LoadError Document :=
  (parse format text).bind resolved

end Document
end ClientGen
