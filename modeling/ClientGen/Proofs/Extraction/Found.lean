import ClientGen.Proofs.Extraction.Api
import ClientGen.Proofs.Extraction.Termination

/-! Documents whose schemas can all be converted. Only in these does every shape that is extracted stem from a
schema; elsewhere `unknown` stands in for a conversion that never ends. -/
namespace ClientGen
open Document (Operation PathItem)
variable {table : SchemaTable} {d : Document}

/-- The conversion of every schema ends that stands with a parameter, with the body or with a response. -/
structure Document.Operation.Converts (table : SchemaTable) (item : PathItem) (op : Operation) : Prop where
  parameters : ∀ p, .inline p ∈ item.parameters ∨ .inline p ∈ op.parameters → ∀ s ∈ p.schemas, table.Ends s
  requestBody : ∀ b, op.requestBody = some (.inline b) → ∀ s ∈ b.schemas, table.Ends s
  responses : ∀ status r, (status, .inline r) ∈ op.responses → ∀ s ∈ r.schemas, table.Ends s

/-- So it does for the schemas with names, and for all operations. -/
structure Document.Converts (d : Document) : Prop where
  schemas : ∀ e ∈ d.sections.schemas, SchemaTable.Ends d.sections.schemas e.2
  operations : ∀ e ∈ d.paths, ∀ method, ∀ op ∈ e.2.operation method,
    op.Converts d.sections.schemas e.2

/-! Whether a conversion ends is known after the steps that are tried, so all of this can be computed. -/

instance (table : SchemaTable) (s : Schema) : Decidable (table.Ends s) :=
  decidable_of_iff (s.isFound table (table.steps s.depth)) ⟨fun h => ⟨_, h⟩, fun ⟨_, h⟩ => Schema.isFound_steps h⟩

theorem RefOr.mem_inline?_iff {α : Type} {r : RefOr α} {x : α} : x ∈ r.inline? ↔ r = .inline x := by
  cases r <;> simp [RefOr.inline?]

instance (table : SchemaTable) (item : PathItem) (op : Operation) : Decidable (op.Converts table item) :=
  decidable_of_iff
    ((∀ r ∈ item.parameters ++ op.parameters, ∀ p ∈ r.inline?, ∀ s ∈ p.schemas, table.Ends s) ∧
      (∀ r ∈ op.requestBody, ∀ b ∈ r.inline?, ∀ s ∈ b.schemas, table.Ends s) ∧
      ∀ e ∈ op.responses, ∀ r ∈ e.2.inline?, ∀ s ∈ r.schemas, table.Ends s)
    ⟨fun ⟨hp, hb, hr⟩ =>
      ⟨fun p h => hp _ (List.mem_append.mpr h) p (RefOr.mem_inline?_iff.mpr rfl),
        fun b h => hb _ h b (RefOr.mem_inline?_iff.mpr rfl),
        fun status r h => hr (status, .inline r) h r (RefOr.mem_inline?_iff.mpr rfl)⟩,
    fun h =>
      ⟨fun _ hr p hp => h.parameters p (List.mem_append.mp (RefOr.mem_inline?_iff.mp hp ▸ hr)),
        fun _ hr b hb => h.requestBody b (RefOr.mem_inline?_iff.mp hb ▸ hr),
        fun e he r hr => h.responses e.1 r (RefOr.mem_inline?_iff.mp hr ▸ he)⟩⟩

instance (d : Document) : Decidable d.Converts :=
  decidable_of_iff
    ((∀ e ∈ d.sections.schemas, SchemaTable.Ends d.sections.schemas e.2) ∧
      ∀ e ∈ d.paths, ∀ method ∈ Method.all, ∀ op ∈ e.2.operation method, op.Converts d.sections.schemas e.2)
    ⟨fun ⟨hs, ho⟩ => ⟨hs, fun e he method => ho e he method (by cases method <;> decide)⟩,
    fun h => ⟨h.schemas, fun e he method _ => h.operations e he method⟩⟩

/-- A shape that a schema is converted to, or that stands where there is no schema. -/
def Shape.Found (table : SchemaTable) (shape : Shape) : Prop :=
  (∃ s n, Schema.shape? table n s = some shape) ∨ shape = .unknown ∨ shape = .plainString

theorem SchemaTable.Ends.exists_shape? {s : Schema} (h : table.Ends s) :
    ∃ n, s.shape? table n = some (s.shape table) := by
  obtain ⟨n, hn⟩ := h
  obtain ⟨shape, hshape⟩ := Option.isSome_iff_exists.mp hn
  exact ⟨n, by rw [Schema.shape_eq_of_shape? hshape, hshape]⟩

theorem carries_found (table : SchemaTable) : Carries table table.Ends (Shape.Found table) where
  shape s hs := .inl ⟨s, hs.exists_shape?⟩
  unknown := .inr (.inl rfl)
  string := .inr (.inr rfl)

/-- Nothing is extracted from such a document that is not found in it. -/
theorem Document.Converts.found (h : d.Converts) :
    (∀ op ∈ d.extract.operations, ∀ shape ∈ op.shapes, shape.Found d.sections.schemas) ∧
      ∀ e ∈ d.sections.schemas, ∃ n,
        e.2.shape? d.sections.schemas n = some (Extract.schemaRecord d.sections.schemas e.1 e.2).shape := by
  refine ⟨fun op hop => ?_, fun e he => (h.schemas e he).exists_shape?⟩
  obtain ⟨path, item, id, method, declared, hp, hm, rfl⟩ := Extract.mem_operations hop
  have hop := h.operations _ hp method declared hm
  exact Extract.carried_operationRecord (carries_found _) hop.parameters hop.requestBody hop.responses

/-- A document converts if no schema with a name merges itself again below one of its members. -/
theorem Document.converts_of_acyclic
    (h : ∀ name, ¬Relation.TransGen (SchemaTable.Remerges d.sections.schemas) name name) : d.Converts := by
  have ends (s : Schema) : SchemaTable.Ends d.sections.schemas s :=
    SchemaTable.ends_of_settled (fun _ name _ _ => SchemaTable.settled_of_acyclic h name) s (.refl s)
  exact ⟨fun e _ => ends e.2, fun _ _ _ _ _ =>
    ⟨fun _ _ s _ => ends s, fun _ _ s _ => ends s, fun _ _ _ s _ => ends s⟩⟩

end ClientGen
