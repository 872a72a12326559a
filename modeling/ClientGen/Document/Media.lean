import ClientGen.Document.Basic
import ClientGen.Text.Blank

/-! Media types of a `content` map. -/
namespace ClientGen.Document

namespace MediaType

def json : String := "application/json"
def eventStream : String := "text/event-stream"
def ndjson : String := "application/x-ndjson"

/-- What one element of a streamed body is: `itemSchema`, or `schema` in older documents. -/
def streamItem (m : MediaType) : Option Schema := m.itemSchema.or m.schema

/-- The type and subtype, without parameters (`application/json; charset=utf-8`). -/
def essence (key : String) : List Char :=
  Text.trimBlank (key.toList.takeWhile (· ≠ ';'))

/-- Whether a key names `expected`, up to parameters and ASCII case. -/
def matchesKey (key expected : String) : Bool :=
  (essence key).map Char.toLower = expected.toList.map Char.toLower

/-- The first entry whose key names `expected`. -/
def find? (content : Entries String MediaType) (expected : String) : Option MediaType :=
  (content.find? fun entry => matchesKey entry.1 expected).map Prod.snd

end MediaType

end ClientGen.Document
