import ClientGen.Api.Basic
import ClientGen.Document.Media
import ClientGen.Shape.OfSchema

/-! What an operation answers with, and whether it streams. -/
namespace ClientGen.Api
open Document

/-- The successful statuses, in the order in which they are consulted. -/
def successStatuses : List String := ["200", "201", "202", "203", "204"]

/-- The responses to the successful statuses; references that were not resolved are passed over. -/
def successes (responses : Entries String (RefOr Response)) : List Response :=
  successStatuses.filterMap fun status => (Entries.get? responses status).bind RefOr.inline?

structure ResponseInfo where
  shape : Option Shape
  stream : Option Stream

/-- JSON goes before an event stream, and that before NDJSON. -/
def bodyShape? (table : SchemaTable) (r : Response) : Option Shape :=
  match MediaType.find? r.content MediaType.json with
  | some json => some (shapeOfOptional table json.schema)
  | none =>
    ((MediaType.find? r.content MediaType.eventStream).or
        (MediaType.find? r.content MediaType.ndjson)).map
      fun stream => shapeOfOptional table stream.streamItem

/-- The shape comes from the first status with a supported body. Streaming is decided apart from it:
an event stream of any status goes before NDJSON of any status. -/
def classify (table : SchemaTable) (responses : Entries String (RefOr Response)) : ResponseInfo :=
  let found := successes responses
  let stream (kind : StreamKind) (media : String) : Option Stream :=
    (found.findSome? fun r => MediaType.find? r.content media).map
      fun m => ⟨kind, shapeOfOptional table m.streamItem⟩
  { shape := found.findSome? (bodyShape? table)
    stream := (stream .sse MediaType.eventStream).or (stream .ndjson MediaType.ndjson) }

end ClientGen.Api
