import ClientGen.Mapping.Rename
import ClientGen.Proofs.Shape

/-! Operations and schemas whose references are renamed. -/
namespace ClientGen.Api
variable {f g : String → String} {R : String → String → Prop}

/-- The names that an operation refers to. -/
def Operation.References (op : Operation) (a : String) : Prop := ∃ s ∈ op.shapes, a ∈ s.references

/-- Schemas have distinct names, and whatever is referred to is one of them. -/
structure Closed (ops : List Operation) (schemas : List SchemaRecord) : Prop where
  distinct : (schemas.map (·.name)).Nodup
  operations : ∀ op ∈ ops, ∀ a, op.References a → a ∈ schemas.map (·.name)
  schemas : ∀ s ∈ schemas, ∀ a ∈ s.shape.references, a ∈ schemas.map (·.name)

/-- The operation under another identifier, with its references renamed. -/
def Operation.renamed (f : String → String) (op : Operation) (id : String) : Operation :=
  { op.renameReferences f with id }

structure Parameter.Matches (R : String → String → Prop) (p q : Parameter) : Prop where
  shape : p.shape.Matches R q.shape
  rest : q = { p with shape := q.shape }

structure Body.Matches (R : String → String → Prop) (b c : Body) : Prop where
  shape : b.shape.Matches R c.shape
  rest : c = { b with shape := c.shape }

structure Stream.Matches (R : String → String → Prop) (s t : Stream) : Prop where
  item : s.item.Matches R t.item
  rest : t = { s with item := t.item }

/-- The same operation but for its identifier and the names of references, which `R` relates. -/
structure Operation.Matches (R : String → String → Prop) (op new : Operation) : Prop where
  pathParams : List.Forall₂ (Parameter.Matches R) op.pathParams new.pathParams
  queryParams : List.Forall₂ (Parameter.Matches R) op.queryParams new.queryParams
  body : Option.Rel (Body.Matches R) op.body new.body
  response : Option.Rel (Shape.Matches R) op.response new.response
  stream : Option.Rel (Stream.Matches R) op.stream new.stream
  rest : new = { op with
    id := new.id
    pathParams := new.pathParams
    queryParams := new.queryParams
    body := new.body
    response := new.response
    stream := new.stream }

/-- The same schema but for its name and the names of references, which `R` relates. -/
structure SchemaRecord.Matches (R : String → String → Prop) (s new : SchemaRecord) : Prop where
  shape : s.shape.Matches R new.shape
  rest : new = { s with name := new.name, shape := new.shape }

/-- The five places of an operation that hold shapes. -/
theorem Operation.mem_shapes {op : Operation} {s : Shape} :
    s ∈ op.shapes ↔ (∃ p ∈ op.pathParams, p.shape = s) ∨ (∃ p ∈ op.queryParams, p.shape = s) ∨
      (∃ b ∈ op.body, b.shape = s) ∨ s ∈ op.response ∨ ∃ t ∈ op.stream, t.item = s := by
  simp [Operation.shapes]

theorem Operation.shapes_renameReferences (f : String → String) (op : Operation) :
    (op.renameReferences f).shapes = op.shapes.map (Shape.rename f) := by
  simp only [Operation.shapes, Operation.renameReferences, List.map_append,
    List.map_map, Option.map_map, ← Option.toList_map]
  rfl

theorem Operation.renamed_renamed (f g : String → String) (op : Operation) (id₁ id : String) :
    (op.renamed f id₁).renamed g id = op.renamed (g ∘ f) id := by
  simp [Operation.renamed, Operation.renameReferences, Parameter.rename, Function.comp_def,
    Shape.rename_rename]

/-- Only the references of the operation matter to how it is renamed. -/
theorem Operation.renamed_congr {op : Operation} (h : ∀ a, op.References a → f a = g a)
    (id : String) : op.renamed f id = op.renamed g id := by
  have hs : ∀ s ∈ op.shapes, s.rename f = s.rename g :=
    fun s hs => s.rename_congr fun a ha => h a ⟨s, hs, ha⟩
  simp only [mem_shapes] at hs
  have hp {p : Parameter} (h : p.shape.rename f = p.shape.rename g) : p.rename f = p.rename g := by
    rw [Parameter.rename, h, Parameter.rename]
  simp only [Operation.renamed, Operation.renameReferences]
  congr 1
  · exact List.map_congr_left fun p hmem => hp (hs _ (.inl ⟨p, hmem, rfl⟩))
  · exact List.map_congr_left fun p hmem => hp (hs _ (.inr (.inl ⟨p, hmem, rfl⟩)))
  · exact Option.map_congr fun b hb => by rw [hs _ (.inr (.inr (.inl ⟨b, hb, rfl⟩)))]
  · exact Option.map_congr fun s hr => hs _ (.inr (.inr (.inr (.inl hr))))
  · exact Option.map_congr fun t ht => by rw [hs _ (.inr (.inr (.inr (.inr ⟨t, ht, rfl⟩))))]

theorem Parameter.matches_rename {p : Parameter} (h : ∀ a ∈ p.shape.references, R a (f a)) :
    p.Matches R (p.rename f) :=
  ⟨p.shape.matches_rename h, rfl⟩

theorem Operation.matches_renamed {op : Operation} (id : String)
    (h : ∀ a, op.References a → R a (f a)) : op.Matches R (op.renamed f id) := by
  have hs : ∀ s ∈ op.shapes, ∀ a ∈ s.references, R a (f a) := fun s hs a ha => h a ⟨s, hs, ha⟩
  simp only [mem_shapes] at hs
  refine ⟨?_, ?_, ?_, ?_, ?_, rfl⟩
  · rw [Operation.renamed, Operation.renameReferences, List.forall₂_map_right_iff, List.forall₂_same]
    exact fun p hp => Parameter.matches_rename (hs _ (.inl ⟨p, hp, rfl⟩))
  · rw [Operation.renamed, Operation.renameReferences, List.forall₂_map_right_iff, List.forall₂_same]
    exact fun p hp => Parameter.matches_rename (hs _ (.inr (.inl ⟨p, hp, rfl⟩)))
  · simp only [Operation.renamed, Operation.renameReferences]
    cases hb : op.body with
    | none => exact .none
    | some b => exact .some ⟨b.shape.matches_rename (hs _ (.inr (.inr (.inl ⟨b, hb, rfl⟩)))), rfl⟩
  · simp only [Operation.renamed, Operation.renameReferences]
    cases hr : op.response with
    | none => exact .none
    | some s => exact .some (s.matches_rename (hs _ (.inr (.inr (.inr (.inl hr))))))
  · simp only [Operation.renamed, Operation.renameReferences]
    cases ht : op.stream with
    | none => exact .none
    | some t => exact .some ⟨t.item.matches_rename (hs _ (.inr (.inr (.inr (.inr ⟨t, ht, rfl⟩))))), rfl⟩

theorem SchemaRecord.matches_rename {s : SchemaRecord} (h : ∀ a ∈ s.shape.references, R a (f a)) :
    s.Matches R (s.rename f) :=
  ⟨s.shape.matches_rename h, rfl⟩

end ClientGen.Api
