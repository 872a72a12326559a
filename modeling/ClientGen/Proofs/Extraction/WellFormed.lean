import ClientGen.Proofs.Extraction.Aliases
import ClientGen.Proofs.Renaming.Isomorphism
import ClientGen.Proofs.Shape.WellFormed

/-! What is extracted is well-formed, at any depth: an object requires only properties that it has, each of
them once, and what is referred to is referred to in the document. -/
namespace ClientGen
variable {d : Document} {b : SchemaBody} {o o' : ObjectShape} {shape : Shape}
  {shape? : Schema → Option Shape}

/-! ### Shapes from a document -/

/-- Whether a reference to a schema of that name is written in the document. -/
def Document.RefersTo (d : Document) (name : String) : Prop :=
  name ≠ "" ∧ d.Holds (.ref (Reference.toEntry "schemas" name))

/-- A well-formed shape that refers to what the document refers to. -/
structure Shape.IsFrom (d : Document) (s : Shape) : Prop where
  wellFormed : s.WellFormed
  references : ∀ a ∈ s.references, d.RefersTo a

theorem Shape.Plain.isFrom (h : shape.Plain) : shape.IsFrom d where
  wellFormed o ho := (h.object o ho).elim
  references := by simp [h.references]

theorem Shape.IsFrom.array (h : shape.IsFrom d) : (Shape.array shape).IsFrom d where
  wellFormed := by
    intro o ho
    cases ho with
    | item ho => exact h.wellFormed o ho
  references := h.references

/-- An object that is not finished: what it requires may be declared later. -/
structure ObjectShape.Draft (d : Document) (o : ObjectShape) : Prop where
  distinct : (Entries.keys o.properties).Nodup
  properties : ∀ p ∈ o.properties, p.2.IsFrom d
  additional : ∀ s ∈ o.additional, s.IsFrom d

theorem ObjectShape.draft_empty : ObjectShape.empty.Draft d :=
  ⟨.nil, fun _ h => (nomatch h), fun _ h => (nomatch h)⟩

/-- Once what is not declared is dropped, the object is finished. -/
theorem ObjectShape.Draft.isFrom (h : o.Draft d) : (Shape.object o.dropUndeclared).IsFrom d where
  wellFormed := by
    intro p hp
    cases hp with
    | here =>
      refine ⟨h.distinct, fun name hname => ?_⟩
      exact Entries.has_eq_true_iff.mp (List.mem_filter.mp hname).2
    | property he hp => exact (h.properties _ he).wellFormed p hp
    | additional hs hp => exact (h.additional _ hs).wellFormed p hp
  references := by
    intro a ha
    rcases ObjectShape.mem_references.mp ha with ⟨p, hp, ha⟩ | ⟨s, hs, ha⟩
    · exact (h.properties p hp).references a ha
    · exact (h.additional s hs).references a ha

/-! ### Schemas -/

theorem Reference.ne_empty_of_schemaName? {path name : String} (h : schemaName? path = some name) :
    name ≠ "" := by
  rw [schemaName?] at h
  split at h
  · cases h
    simp [← String.toList_inj]
  · cases h

/-- What a schema declares itself is put in without doubling a property. -/
theorem SchemaBody.draft_mergeOwn? (hs : ∀ s ∈ b.children, ∀ shape, shape? s = some shape → shape.IsFrom d)
    (ho : o.Draft d) (h : b.mergeOwn? shape? o = some o') : o'.Draft d := by
  obtain ⟨hproperties, hadditional⟩ := mem_mergeOwn? h
  refine ⟨?_, fun p hp => ?_, fun extra hmem => ?_⟩
  · refine foldlM_eq_some (P := fun ps => (Entries.keys ps).Nodup) (fun ps member ps' _ hps hstep => ?_)
      ho.distinct (mergeOwn?_eq_some.mp h).1
    obtain ⟨shape, -, rfl⟩ := Option.map_eq_some_iff.mp hstep
    exact Entries.nodup_keys_put hps
  · rcases hproperties p hp with hold | ⟨s, hchild, hshape⟩
    · exact ho.properties p hold
    · exact hs s hchild _ hshape
  · rcases hadditional extra hmem with hold | rfl | ⟨s, hchild, hshape⟩
    · exact ho.additional extra hold
    · exact Shape.plain_unknown.isFrom
    · exact hs s hchild extra hshape

/-- References are written in the document, and members are put into objects one name at a time. -/
theorem Document.shapeInvariant_isFrom (d : Document) :
    ShapeInvariant d.sections.schemas d.Holds (Shape.IsFrom d) (ObjectShape.Draft d) where
  within hb hs := hb.within hs
  entry hb := .entry (SchemaTable.mem_of_body? hb)
  ref := by
    intro path name hd hn
    have hne := Reference.ne_empty_of_schemaName? hn
    obtain rfl := Reference.eq_toEntry_of_schemaName? hn
    refine ⟨fun _ ho => (by cases ho), fun a ha => ?_⟩
    obtain rfl := List.mem_singleton.mp ha
    exact ⟨hne, hd⟩
  plain hs := hs.isFrom
  array hs := hs.array
  empty := ObjectShape.draft_empty
  own := SchemaBody.draft_mergeOwn?
  finish ho := ho.isFrom

/-! ### The document -/

theorem Document.carries_isFrom (d : Document) :
    Carries d.sections.schemas d.Holds (Shape.IsFrom d) where
  shape _ hs := d.shapeInvariant_isFrom.of_shape hs
  unknown := Shape.plain_unknown.isFrom
  string := (Shape.plain_string _ _).isFrom

theorem Document.isFrom_operation {op : Api.Operation} (h : op ∈ d.extract.operations) :
    ∀ shape ∈ op.shapes, shape.IsFrom d := by
  obtain ⟨path, item, id, method, declared, hp, hm, rfl⟩ := Extract.mem_operations h
  refine Extract.carried_operationRecord d.carries_isFrom (fun p hmem s hs => ?_) (fun b hb s hs => ?_)
    (fun status r hr s hs => ?_)
  · rcases hmem with hmem | hmem
    · exact .shared hp hmem hs
    · exact .parameter hp hm hmem hs
  · exact .body hp hm hb hs
  · exact .response hp hm hr hs

theorem Document.isFrom_schema {r : Api.SchemaRecord} (h : r ∈ d.extract.schemas) : r.shape.IsFrom d := by
  obtain ⟨e, he, rfl⟩ := List.mem_map.mp h
  exact d.shapeInvariant_isFrom.of_shape (.entry he)

namespace Api
variable {t : MappingTable} {ops ops' : List Operation} {schemas schemas' : List SchemaRecord}

/-- All objects of operations and schemas are well-formed. -/
structure WellFormed (ops : List Operation) (schemas : List SchemaRecord) : Prop where
  operations : ∀ op ∈ ops, ∀ s ∈ op.shapes, s.WellFormed
  schemas : ∀ s ∈ schemas, s.shape.WellFormed

/-- A table renames, and what is well-formed stays so. -/
theorem WellFormed.apply (h : WellFormed ops schemas) (ht : t.apply ops schemas = .ok (ops', schemas')) :
    WellFormed ops' schemas' := by
  obtain ⟨r, ids, -, -, rfl, rfl⟩ := MappingTable.apply_eq_ok.mp ht
  refine ⟨fun op hop s hs => ?_, fun s hs => ?_⟩
  · obtain ⟨old, hold, id, rfl⟩ := exists_of_mem_zipWith hop
    have hmem : s ∈ (old.renameReferences r.apply).shapes := hs
    rw [Operation.shapes_renameReferences] at hmem
    obtain ⟨before, hbefore, rfl⟩ := List.mem_map.mp hmem
    exact (h.operations old hold before hbefore).rename r.apply
  · obtain ⟨old, hold, rfl⟩ := List.mem_map.mp hs
    exact (h.schemas old hold).rename r.apply

/-- Tables one after another, as far as they can be applied. -/
def applyAll (tables : List MappingTable) (state : List Operation × List SchemaRecord) :
    Except MappingError (List Operation × List SchemaRecord) :=
  tables.foldlM (fun state t => t.apply state.1 state.2) state

theorem WellFormed.applyAll {tables : List MappingTable} {state state' : List Operation × List SchemaRecord}
    (h : WellFormed state.1 state.2) (ht : Api.applyAll tables state = .ok state') :
    WellFormed state'.1 state'.2 :=
  foldlM_eq_ok (P := fun state => WellFormed state.1 state.2)
    (fun _ _ _ _ hstate hstep => hstate.apply hstep) h ht

end Api

/-- Whatever tables are applied to what is extracted, every object requires only what it has and has it
once; and what is extracted refers to schemas only by references that are written in the document. -/
theorem Document.extract_wellFormed (d : Document) :
    (∀ tables state, Api.applyAll tables (d.extract.operations, d.extract.schemas) = .ok state →
      Api.WellFormed state.1 state.2) ∧
    (∀ op ∈ d.extract.operations, ∀ s ∈ op.shapes, ∀ a ∈ s.references, d.RefersTo a) ∧
    ∀ r ∈ d.extract.schemas, ∀ a ∈ r.shape.references, d.RefersTo a := by
  refine ⟨fun tables state h => ?_, fun op hop s hs => ?_, fun r hr => ?_⟩
  · have hstart : Api.WellFormed d.extract.operations d.extract.schemas :=
      ⟨fun op hop s hs => (isFrom_operation hop s hs).wellFormed, fun r hr => (isFrom_schema hr).wellFormed⟩
    exact hstart.applyAll h
  · exact (isFrom_operation hop s hs).references
  · exact (isFrom_schema hr).references

/-- A pet must have a name, which only the part after declares, and a tag, which none does. -/
def friendlyPet : SchemaBody :=
  { SchemaBody.empty with
    allOf := [
      .inline { SchemaBody.empty with
        properties := [("friend", .ref "#/components/schemas/Base")]
        required := ["name", "friend", "tag"] },
      .ref "#/components/schemas/Base"] }

/-- An operation that answers with pets, in a document that declares what they have in common. -/
def friendlyDocument : Document where
  openapi := "3.1.0"
  info := ⟨"Pets", none, "1"⟩
  servers := []
  paths := [("/pets", {
    parameters := []
    get := some {
      operationId := some "pets"
      summary := none
      description := none
      deprecated := false
      parameters := []
      requestBody := none
      responses := [("200", .inline ⟨[("application/json", {
        schema := some (.inline { SchemaBody.empty with
          type := some (.single .array), items := some (.inline friendlyPet) })
        itemSchema := none })]⟩)] }
    post := none
    put := none
    delete := none
    patch := none
    options := none
    head := none
    trace := none })]
  components := some { Document.Components.empty with schemas := [("Base", .inline petBase)] }

/-- The tag is not required any more, and the reference follows the schema to its new name. -/
theorem Document.extract_wellFormed_pets :
    let tables : List MappingTable := [.empty, ⟨[], [("Base", "Animal")]⟩]
    ∃ state, Api.applyAll tables (friendlyDocument.extract.operations, friendlyDocument.extract.schemas) =
        .ok state ∧
      state.1.flatMap Api.Operation.shapes = [.array (.object
        ⟨[("friend", .reference "Animal"), ("name", .unknown)], ["name", "friend"], none⟩)] ∧
      Api.WellFormed state.1 state.2 ∧ friendlyDocument.RefersTo "Base" := by
  intro tables
  obtain ⟨hwell, hrefers, -⟩ := Document.extract_wellFormed friendlyDocument
  exact ⟨_, rfl, rfl, hwell tables _ rfl,
    hrefers _ List.mem_cons_self _ List.mem_cons_self "Base" List.mem_cons_self⟩

end ClientGen
