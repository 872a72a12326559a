import ClientGen.Api.Extract
import ClientGen.Proofs.Document.Resolution
import ClientGen.Proofs.Extraction.Shape
import ClientGen.Proofs.Records

/-! What is extracted from a document whose references lead somewhere refers to its schemas only. -/
namespace ClientGen
open Document (Components MediaType Leads PathItem Location Response schemasOf)
variable {α : Type} {expected : String} {entries : Entries String (RefOr α)} {table : SchemaTable}
  {within : α → List Schema} {content : Entries String MediaType} {media : MediaType} {d : Document}

theorem Document.Leads.known {value : α} (h : Leads expected entries table within (.inline value)) :
    ∀ s ∈ within value, s.Known table := by
  obtain ⟨value', hr, hk⟩ := h
  obtain rfl := hr.unique (Document.reaches_inline value)
  exact hk

theorem Document.MediaType.mem_schemasOf (h : MediaType.find? content expected = some media) :
    ∀ s, s ∈ media.schema ∨ s ∈ media.itemSchema → s ∈ schemasOf content := by
  intro s hs
  obtain ⟨e, he, rfl⟩ := Option.map_eq_some_iff.mp h
  refine List.mem_flatMap.mpr ⟨e, List.mem_of_find?_eq_some he, ?_⟩
  simpa using hs

/-- What holds of the shapes of certain schemas, and of the shapes that stand where there is no schema. -/
structure Carries (table : SchemaTable) (Q : Schema → Prop) (P : Shape → Prop) : Prop where
  shape : ∀ s, Q s → P (s.shape table)
  unknown : P .unknown
  string : P .plainString

theorem carries_within (ht : ∀ e ∈ table, e.2.Known table) :
    Carries table (Schema.Known table) (Shape.Within (Entries.keys table)) where
  shape _ hs := hs.within_shape ht
  unknown := Shape.within_of_nil rfl
  string := Shape.within_of_nil rfl

namespace Carries
variable {Q : Schema → Prop} {P : Shape → Prop} (h : Carries table Q P)
include h

theorem optional {schema : Option Schema} (hs : ∀ s ∈ schema, Q s) : P (shapeOfOptional table schema) := by
  cases schema with
  | none => exact h.unknown
  | some s => exact h.shape s (hs s rfl)

/-- The shapes that responses and streams are given. -/
theorem content_media (hs : ∀ s ∈ schemasOf content, Q s) (hfind : MediaType.find? content expected = some media) :
    P (shapeOfOptional table media.schema) ∧ P (shapeOfOptional table media.streamItem) := by
  have hm := MediaType.mem_schemasOf hfind
  refine ⟨h.optional fun s hmem => hs s (hm s (.inl hmem)), ?_⟩
  refine h.optional fun s hmem => hs s (hm s ?_)
  rcases Option.or_eq_some_iff.mp hmem with hi | ⟨_, hmem⟩
  · exact .inr hi
  · exact .inl hmem

end Carries

namespace Api

theorem mem_successes {responses : Entries String (RefOr Response)} {r : Response}
    (h : r ∈ successes responses) : ∃ status, (status, .inline r) ∈ responses := by
  obtain ⟨status, _, h⟩ := List.mem_filterMap.mp h
  obtain ⟨value, hg, hv⟩ := Option.bind_eq_some_iff.mp h
  refine ⟨status, ?_⟩
  cases value with
  | ref path => cases hv
  | inline value =>
    cases hv
    exact Entries.mem_of_get? hg

section
variable {Q : Schema → Prop} {P : Shape → Prop} (h : Carries table Q P)
include h

theorem carried_bodyShape? {r : Response} {shape : Shape} (hs : ∀ s ∈ r.schemas, Q s)
    (hbody : bodyShape? table r = some shape) : P shape := by
  rw [bodyShape?] at hbody
  split at hbody
  · rename_i json hj
    cases hbody
    exact (h.content_media hs hj).1
  · obtain ⟨stream, hstream, rfl⟩ := Option.map_eq_some_iff.mp hbody
    rcases Option.or_eq_some_iff.mp hstream with hstream | ⟨_, hstream⟩
    · exact (h.content_media hs hstream).2
    · exact (h.content_media hs hstream).2

theorem carried_classify {responses : Entries String (RefOr Response)}
    (hs : ∀ status r, (status, .inline r) ∈ responses → ∀ s ∈ r.schemas, Q s) :
    (∀ shape ∈ (classify table responses).shape, P shape) ∧
      ∀ st ∈ (classify table responses).stream, P st.item := by
  have hfound : ∀ r ∈ successes responses, ∀ s ∈ r.schemas, Q s := by
    intro r hr
    obtain ⟨status, hmem⟩ := mem_successes hr
    exact hs status r hmem
  refine ⟨fun shape hshape => ?_, fun st hst => ?_⟩
  · obtain ⟨r, hr, hshape⟩ := List.exists_of_findSome?_eq_some hshape
    exact carried_bodyShape? h (hfound r hr) hshape
  · have hstream {kind : StreamKind} {name : String} (hst : ((successes responses).findSome? fun r =>
        MediaType.find? r.content name).map
          (fun m => ⟨kind, shapeOfOptional table m.streamItem⟩) = some st) : P st.item := by
      obtain ⟨m, hm, rfl⟩ := Option.map_eq_some_iff.mp hst
      obtain ⟨r, hr, hm⟩ := List.exists_of_findSome?_eq_some hm
      exact (h.content_media (hfound r hr) hm).2
    rcases Option.or_eq_some_iff.mp hst with hst | ⟨_, hst⟩
    · exact hstream hst
    · exact hstream hst

end

end Api

namespace Extract

/-- Declared parameters are written in place, with the path or with the operation. -/
theorem mem_declaredParameters {shared own : List (RefOr Document.Parameter)}
    {e : (Location × String) × Document.Parameter} (h : e ∈ declaredParameters shared own) :
    .inline e.2 ∈ shared ∨ .inline e.2 ∈ own := by
  obtain ⟨p, hp, rfl⟩ := List.mem_map.mp (Entries.mem_ofList e h)
  obtain ⟨r, hr, hi⟩ := List.mem_filterMap.mp hp
  cases r with
  | ref path => cases hi
  | inline value =>
    cases hi
    exact List.mem_append.mp hr

section
variable {declared : Entries (Location × String) Document.Parameter} {Q : Schema → Prop} {P : Shape → Prop}
  (h : Carries table Q P)
include h

theorem carried_pathParameters {path : String} (hd : ∀ e ∈ declared, ∀ s ∈ e.2.schema, Q s) :
    ∀ p ∈ pathParameters table declared path, P p.shape := by
  intro p hp
  obtain ⟨name, _, rfl⟩ := List.mem_map.mp hp
  split
  · rename_i q hq
    cases hs : q.schema with
    | none => exact h.string
    | some s => exact h.shape s (hd _ (Entries.mem_of_get? hq) s hs)
  · exact h.string

theorem carried_queryParameters (hd : ∀ e ∈ declared, ∀ s ∈ e.2.schema, Q s) :
    ∀ p ∈ queryParameters table declared, P p.shape := by
  intro p hp
  obtain ⟨q, hq, rfl⟩ := List.mem_map.mp hp
  obtain ⟨e, he, rfl⟩ := List.mem_map.mp (List.mem_of_mem_filter hq)
  exact h.optional (hd e he)

theorem carried_requestBody {body : Option (RefOr Document.Body)}
    (hs : ∀ b, body = some (.inline b) → ∀ s ∈ b.schemas, Q s) :
    ∀ b ∈ requestBody table body, P b.shape := by
  intro b hb
  simp only [requestBody, Option.bind_eq_bind, Option.mem_def, Option.bind_eq_some_iff] at hb
  obtain ⟨inline, ⟨r, rfl, hr⟩, json, hj, hb⟩ := hb
  cases hb
  cases r with
  | ref path => cases hr
  | inline value =>
    cases hr
    exact (h.content_media (hs inline rfl) hj).1

/-- An operation has the shapes of the schemas that are written with it or with its path. -/
theorem carried_operationRecord {path id : String} {item : PathItem} {method : Method}
    {op : Document.Operation}
    (hp : ∀ p, .inline p ∈ item.parameters ∨ .inline p ∈ op.parameters → ∀ s ∈ p.schemas, Q s)
    (hb : ∀ b, op.requestBody = some (.inline b) → ∀ s ∈ b.schemas, Q s)
    (hr : ∀ status r, (status, .inline r) ∈ op.responses → ∀ s ∈ r.schemas, Q s) :
    ∀ shape ∈ (operationRecord table path item id method op).shapes, P shape := by
  have hd : ∀ e ∈ declaredParameters item.parameters op.parameters, ∀ s ∈ e.2.schema, Q s := by
    intro e he s hs
    exact hp e.2 (mem_declaredParameters he) s (by simpa [Document.Parameter.schemas] using hs)
  obtain ⟨hresponse, hstream⟩ := Api.carried_classify h hr
  intro shape hshape
  rcases Api.Operation.mem_shapes.mp hshape with ⟨p, hp, rfl⟩ | ⟨p, hp, rfl⟩ | ⟨b, hmem, rfl⟩ | hshape |
    ⟨st, hst, rfl⟩
  · exact carried_pathParameters h hd p hp
  · exact carried_queryParameters h hd p hp
  · exact carried_requestBody h hb b hmem
  · exact hresponse shape hshape
  · exact hstream st hst

end

/-- Everything that an operation refers to is a schema. -/
theorem within_operationRecord {c : Components} {path id : String} {item : PathItem} {method : Method}
    {op : Document.Operation} (ht : ∀ e ∈ c.schemas, e.2.Known c.schemas) (hi : item.Resolvable c)
    (ho : op.Resolvable c) : ∀ s ∈ (operationRecord c.schemas path item id method op).shapes,
      s.Within (Entries.keys c.schemas) := by
  refine carried_operationRecord (carries_within ht) (fun p hp => ?_) (fun b hb => ?_) (fun status r hr => ?_)
  · rcases hp with hp | hp
    · exact (hi.parameters _ hp).known
    · exact (ho.parameters _ hp).known
  · exact (ho.requestBody _ hb).known
  · exact (ho.responses _ hr).known

/-- Every operation stems from a method of a path. -/
theorem mem_operations {paths : Entries String PathItem} {op : Api.Operation}
    (h : op ∈ operations table paths) : ∃ path item id method, ∃ declared : Document.Operation,
      (path, item) ∈ paths ∧ item.operation method = some declared ∧
        op = operationRecord table path item id method declared := by
  obtain ⟨⟨path, item, method, declared⟩, hmem, id, rfl⟩ := exists_of_mem_zipWith h
  obtain ⟨⟨path', item'⟩, hp, hmem⟩ := List.mem_flatMap.mp hmem
  obtain ⟨⟨method', declared'⟩, ho, he⟩ := List.mem_map.mp hmem
  cases he
  obtain ⟨m, _, hm⟩ := List.mem_filterMap.mp ho
  obtain ⟨op', hop, he⟩ := Option.map_eq_some_iff.mp hm
  cases he
  exact ⟨path, item, id, method, declared, hp, hop, rfl⟩

theorem names_schemas : (schemas table).map (·.name) = Entries.keys table := by
  rw [schemas, List.map_map]
  rfl

end Extract

/-- Extraction meets no reference that resolution has not checked. -/
theorem Document.closed_extract (hd : (Entries.keys d.sections.schemas).Nodup) (hr : d.Resolvable) :
    Api.Closed d.extract.operations d.extract.schemas := by
  have hnames : d.extract.schemas.map (·.name) = Entries.keys d.sections.schemas :=
    Extract.names_schemas
  refine ⟨hnames ▸ hd, fun op hop a ha => ?_, fun s hs => ?_⟩
  · obtain ⟨path, item, id, method, declared, hp, hm, rfl⟩ := Extract.mem_operations hop
    obtain ⟨s, hs, ha⟩ := ha
    have hi := hr.paths _ hp
    exact hnames ▸ Extract.within_operationRecord hr.schemas hi (hi.operations method _ hm) s hs a ha
  · obtain ⟨e, he, rfl⟩ := List.mem_map.mp hs
    exact hnames ▸ (hr.schemas e he).within_shape hr.schemas

end ClientGen
