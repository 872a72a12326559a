import ClientGen.Proofs.Document.Reading
import ClientGen.Proofs.Extraction.Api
import ClientGen.Proofs.Extraction.Identifiers

/-! The records of a document: one for every method that a path declares and for every component schema.
An operation is called what the document calls it, with a number where an operation before it has that
identifier. -/
namespace ClientGen
open Document (PathItem)
variable {table : SchemaTable} {paths : Entries String PathItem} {before after : List Api.Operation}
  {op : Api.Operation} {d : Document}

namespace Extract

/-- The methods that a path declares, in the order in which they are taken. -/
def declaredMethods (item : PathItem) : List Method :=
  [.get, .post, .put, .delete, .patch, .options, .head, .trace].filter fun m => (item.operation m).isSome

theorem methods_operations (item : PathItem) : item.operations.map Prod.fst = declaredMethods item := by
  have declared (methods : List Method) :
      (methods.filterMap fun m => (item.operation m).map (m, ·)).map Prod.fst =
        methods.filter fun m => (item.operation m).isSome := by
    induction methods with
    | nil => rfl
    | cons m methods ih => cases ho : item.operation m <;> simp [ho, ih]
  exact declared Method.all

theorem mem_endpoints {path : String} {item : PathItem} {method : Method} {declared : Document.Operation}
    (h : (path, item, method, declared) ∈ endpoints paths) :
    (path, item) ∈ paths ∧ item.operation method = some declared := by
  obtain ⟨⟨path', item'⟩, hpath, hmem⟩ := List.mem_flatMap.mp h
  obtain ⟨⟨method', declared'⟩, hop, he⟩ := List.mem_map.mp hmem
  cases he
  obtain ⟨_, _, hdeclared⟩ := List.mem_filterMap.mp hop
  obtain ⟨_, hdeclared, he⟩ := Option.map_eq_some_iff.mp hdeclared
  cases he
  exact ⟨hpath, hdeclared⟩

/-- Path by path, and method by method within a path. -/
theorem routes_operations : (operations table paths).map (fun op => (op.path, op.method)) =
    paths.flatMap fun e => (declaredMethods e.2).map (e.1, ·) := by
  calc (operations table paths).map (fun op => (op.path, op.method))
    _ = (endpoints paths).map fun e => (e.1, e.2.2.1) :=
      map_zipWith_left (by rw [uniqueIds, length_uniqueFrom, List.length_map]) fun _ _ => rfl
    _ = paths.flatMap fun e => (e.2.operations.map Prod.fst).map (e.1, ·) := by
      simp only [endpoints, List.map_flatMap, List.map_map]
      rfl
    _ = paths.flatMap fun e => (declaredMethods e.2).map (e.1, ·) := by
      simp only [methods_operations]

/-- Paths that are listed once have no route twice. -/
theorem nodup_routes (h : (Entries.keys paths).Nodup) :
    ((operations table paths).map fun op => (op.path, op.method)).Nodup := by
  rw [routes_operations, List.nodup_flatMap]
  refine ⟨fun e _ => ?_, (List.pairwise_map.mp h).imp fun hne => ?_⟩
  · have hmethods : (declaredMethods e.2).Nodup := List.Nodup.filter _ (by decide)
    exact hmethods.map fun _ _ he => (Prod.mk.inj he).2
  · simp only [Function.onFun, List.disjoint_left, List.mem_map]
    rintro _ ⟨_, _, rfl⟩ ⟨_, _, he⟩
    exact hne (Prod.mk.inj he).1.symm

/-- An operation is given the identifier that is found for it after the operations before it. -/
theorem id_operations (h : operations table paths = before ++ op :: after) : ∃ item declared,
    (op.path, item) ∈ paths ∧ item.operation op.method = some declared ∧
      op.id = Identifier.fresh (before.map (·.id)) (baseId op.path op.method declared) := by
  rw [operations, List.zipWith_eq_append_iff] at h
  obtain ⟨found, others, ids, rest, hl, hfound, hids, rfl, h⟩ := h
  obtain ⟨⟨path, item, method, declared⟩, others, id, rest, rfl, rfl, rfl, rfl⟩ :=
    List.zipWith_eq_cons_iff.mp h.symm
  obtain ⟨hpath, hdeclared⟩ := mem_endpoints (hfound ▸ List.mem_append_cons_self)
  refine ⟨item, declared, hpath, hdeclared, ?_⟩
  rw [hfound, List.map_append, List.map_cons] at hids
  rw [map_zipWith_right hl.symm fun _ _ => rfl]
  exact eq_fresh_of_uniqueIds (by rw [List.length_map, hl]) hids

theorem extractedId_eq_id (h : op ∈ operations table paths) : op.extractedId = op.id := by
  obtain ⟨_, _, _, _, _, _, _, rfl⟩ := mem_operations h
  rfl

end Extract

/-- No route is extracted twice from a document that is read from a text. -/
theorem Document.nodup_routes_parse {format : Format} {text : String} (h : parse format text = .ok d) :
    (d.extract.operations.map fun op => (op.path, op.method)).Nodup :=
  Extract.nodup_routes (listedOnce_parse h).paths

/-- One record for every method that a path declares and for every component schema, in the order of the
document, and an identifier of its own for every operation. -/
structure Document.Lists (d : Document) (api : Api) : Prop where
  routes : api.operations.map (fun op => (op.path, op.method)) =
    d.paths.flatMap fun e => (Extract.declaredMethods e.2).map (e.1, ·)
  distinctRoutes : (Entries.keys d.paths).Nodup →
    (api.operations.map fun op => (op.path, op.method)).Nodup
  distinctIds : (api.operations.map (·.id)).Nodup
  extractedIds : ∀ op ∈ api.operations, op.extractedId = op.id
  /-- The identifier that is searched for comes from the document, or else from the route. -/
  ids : ∀ before op after, api.operations = before ++ op :: after → ∃ item declared,
    (op.path, item) ∈ d.paths ∧ item.operation op.method = some declared ∧
      Identifier.IsFresh (before.map (·.id))
        (declared.operationId.getD (Route.operationId op.method op.path)) op.id
  names : api.schemas.map (·.name) = Entries.keys d.sections.schemas
  declaredNames : api.schemas.map (·.declaredName) = Entries.keys d.sections.schemas

/-- Whatever the document declares, extraction lists it once. Paths are an ordered map, so none of them is
repeated (`listedOnce_parse`). Shapes do not matter here: a schema whose conversion never ends is listed too, with
the shape `unknown`. -/
theorem Document.lists_extract (d : Document) : d.Lists d.extract where
  routes := Extract.routes_operations
  distinctRoutes := Extract.nodup_routes
  distinctIds := by
    have hids : ∀ op ∈ d.extract.operations, op.extractedId = op.id :=
      fun _ hop => Extract.extractedId_eq_id hop
    exact List.map_congr_left hids ▸ d.nodup_extractedIds
  extractedIds _ hop := Extract.extractedId_eq_id hop
  ids _ _ _ h := by
    obtain ⟨item, declared, hitem, hdeclared, hid⟩ := Extract.id_operations h
    exact ⟨item, declared, hitem, hdeclared, hid ▸ Identifier.isFresh_fresh _ _⟩
  names := Extract.names_schemas
  declaredNames := Extract.declaredNames_schemas

/-- A number that was given counts like any other identifier. -/
example : Extract.uniqueIds ["list", "list", "list2", "list"] = ["list", "list2", "list22", "list3"] := by
  decide

end ClientGen
