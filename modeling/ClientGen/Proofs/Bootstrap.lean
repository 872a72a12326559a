import ClientGen.Proofs.Extraction.Api
import ClientGen.Proofs.Extraction.Identifiers
import ClientGen.Proofs.Grouping
import ClientGen.Proofs.Renaming.Neutral

/-! The table that a first run writes. A run that applies it as it stands succeeds, whatever the names
in the document, and does what a run with an empty table does. -/
namespace ClientGen
open Api (Operation SchemaRecord)
variable {t : MappingTable} {mode : FingerprintMode} {d : Document} {m : Model} {op : Operation}
  {ops before : List Operation}

namespace Groups

/-- Operations that are all in the default group. -/
def alone (ops : List Operation) : Groups := if ops.isEmpty then [] else [(defaultService, ops)]

theorem get?_alone (ops : List Operation) :
    (Entries.get? (alone ops) defaultService).getD [] = ops := by
  cases ops with
  | nil => rfl
  | cons op ops => simp [alone, Entries.get?]

theorem filter_alone (ops : List Operation) :
    (alone ops).filter (fun group => group.1 ≠ defaultService) = [] := by
  cases ops with
  | nil => rfl
  | cons op ops => simp [alone]

theorem serviceOf_of_neutral (ht : t.Neutral) (op : Operation) : serviceOf t op = .ok defaultService := by
  rw [serviceOf]
  cases hop : t.operation op.extractedId with
  | none => rfl
  | some mapping =>
    rw [ht.operation _ _ hop]
    rfl

theorem add_alone (hnew : op.id ∉ before.map (·.id)) :
    (alone before).add defaultService op = .ok (alone (before ++ [op])) := by
  have hnone : before.find? (·.id = op.id) = none := by
    rw [List.find?_eq_none]
    intro x hx he
    exact hnew (List.mem_map.mpr ⟨x, hx, by simpa using he⟩)
  rw [add, get?_alone]
  simp only [hnone]
  cases before with
  | nil => rfl
  | cons first before => simp [alone, Entries.put]

/-- Operations with distinct identifiers join the default group one after the other. -/
theorem foldlM_alone (ht : t.Neutral) (hids : ((before ++ ops).map (·.id)).Nodup) :
    ops.foldlM (fun groups op => do groups.add (← serviceOf t op) op) (alone before) =
      .ok (alone (before ++ ops)) := by
  induction ops generalizing before with
  | nil =>
    rw [List.append_nil]
    rfl
  | cons op ops ih =>
    have hnew : op.id ∉ before.map (·.id) := by
      rw [List.map_append, List.map_cons, List.nodup_middle, List.nodup_cons] at hids
      exact fun hmem => hids.1 (List.mem_append_left _ hmem)
    rw [← List.singleton_append, ← List.append_assoc] at hids
    rw [List.foldlM_cons, serviceOf_of_neutral ht, ok_bind, add_alone hnew, ok_bind, ih hids,
      List.append_assoc, List.singleton_append]

theorem ofOperations_of_neutral (ht : t.Neutral) (hids : (ops.map (·.id)).Nodup) :
    ofOperations t ops = .ok (alone ops) := by
  have hall : ((([] : List Operation) ++ ops).map (·.id)).Nodup := hids
  exact foldlM_alone ht hall

end Groups

/-- Lists every operation and every schema once, in order, and maps each to itself. -/
structure MappingTable.ListsOnce (t : MappingTable) (api : Api) : Prop where
  operations : t.operations = api.operations.map fun op => (op.extractedId, .method op.extractedId)
  schemas : t.schemas = api.schemas.map fun s => (s.declaredName, s.declaredName)
  distinctOperations : t.operations.keys.Nodup
  distinctSchemas : t.schemas.keys.Nodup

/-- One client takes all operations, and grouping puts them all into the default group, each in its
place. Names apart, they are as they were extracted. -/
structure Model.Ungrouped (m : Model) (api : Api) : Prop where
  flat : m.flatOperations = .ok m.operations
  root : m.rootOperations = m.operations
  named : m.namedGroups = []
  operations : List.Forall₂ (Operation.Matches (Follows api.schemas m.schemas)) api.operations m.operations
  schemas : List.Forall₂ (SchemaRecord.Matches (Follows api.schemas m.schemas)) api.schemas m.schemas

theorem MappingTable.listsOnce_identity (hd : (Entries.keys d.sections.schemas).Nodup) :
    (identity d.extract).ListsOnce d.extract := by
  have hids : (Entries.keys (d.extract.operations.map fun op =>
      (op.extractedId, OperationMapping.method op.extractedId))).Nodup := by
    rw [Entries.keys, List.map_map]
    exact d.nodup_extractedIds
  have hnames : (Entries.keys (d.extract.schemas.map fun s => (s.declaredName, s.declaredName))).Nodup := by
    have declared : d.extract.schemas.map (·.declaredName) = Entries.keys d.sections.schemas :=
      Extract.declaredNames_schemas
    rw [Entries.keys, List.map_map]
    exact declared ▸ hd
  exact ⟨Entries.ofList_of_nodup hids, Entries.ofList_of_nodup hnames, Entries.nodup_keys_ofList _,
    Entries.nodup_keys_ofList _⟩

/-- Of tables that give no new names, one is as good as another. -/
theorem Api.prepare_congr_of_neutral (ht : t.Neutral) (api : Api) (mode : FingerprintMode) :
    api.prepare (some t) mode = api.prepare (some .empty) mode := by
  have hservice (op : Operation) : Groups.serviceOf t op = Groups.serviceOf .empty op :=
    Groups.serviceOf_of_neutral ht op
  have hgroups (ops : List Operation) :
      Groups.ofOperations t ops = Groups.ofOperations .empty ops := by
    simp only [Groups.ofOperations, hservice]
  simp only [prepare, model, MappingTable.apply_of_neutral ht, hgroups]

/-- With such a table a model is always prepared. -/
theorem Api.prepare_of_neutral (ht : t.Neutral) (api : Api) (mode : FingerprintMode)
    (hd : (api.schemas.map (·.name)).Nodup) :
    ∃ m, api.prepare (some t) mode = .ok (.ready m) ∧ m.Ungrouped api := by
  obtain ⟨r, ids, hr, hnodup, hl, happly⟩ :=
    MappingTable.exists_apply_of_neutral ht api.operations api.schemas
  have hids : ((renamedOperations r api.operations ids).map (·.id)).Nodup := by
    rwa [ids_renamedOperations hl]
  have hgroups := Groups.ofOperations_of_neutral ht hids
  have hfollows := follows_apply hr hd
  have hmodel : api.model t mode = .ok {
      info := api.info
      baseUrl := api.baseUrl
      schemas := api.schemas.map (·.rename r.apply)
      operations := renamedOperations r api.operations ids
      groups := .alone (renamedOperations r api.operations ids)
      types := .ofSchemas mode (api.schemas.map (·.rename r.apply)) } := by
    rw [model, happly, ok_bind]
    dsimp only
    rw [hgroups, ok_bind]
    rfl
  refine ⟨_, by rw [prepare, hmodel]; rfl, ?_⟩
  exact {
    flat := Model.flatOperations_eq_ok_iff.mpr ⟨rfl, hids⟩
    root := Groups.get?_alone _
    named := Groups.filter_alone _
    operations := matches_renamedOperations hl hfollows
    schemas := by
      rw [List.forall₂_map_right_iff, List.forall₂_same]
      exact fun s _ => SchemaRecord.matches_rename fun a _ => hfollows a }

/-- Writing the table of a first run and running again is safe and changes nothing: the table lists all
records, and with it, as with an empty one, a model is prepared with every operation in the default group.
Component schemas are an ordered map, so their names are distinct (`nodup_schemas_parse`); the identifiers
of operations may be anything. -/
theorem Document.bootstrap_neutral (hd : (Entries.keys d.sections.schemas).Nodup)
    (mode : FingerprintMode) : ∃ t m,
      d.extract.prepare none mode = .ok (.bootstrap t) ∧ t.ListsOnce d.extract ∧
      d.extract.prepare (some t) mode = .ok (.ready m) ∧
      d.extract.prepare (some .empty) mode = .ok (.ready m) ∧ m.Ungrouped d.extract := by
  have hnames : (d.extract.schemas.map (·.name)).Nodup := by
    have names : d.extract.schemas.map (·.name) = Entries.keys d.sections.schemas := Extract.names_schemas
    rwa [names]
  obtain ⟨m, hm, hungrouped⟩ := Api.prepare_of_neutral MappingTable.neutral_empty d.extract mode hnames
  have hsame := Api.prepare_congr_of_neutral (MappingTable.neutral_identity d.extract) d.extract mode
  exact ⟨.identity d.extract, m, rfl, MappingTable.listsOnce_identity hd, hsame.trans hm, hm, hungrouped⟩

/-- Operations and schemas that are all called what no client can call them, or alike. -/
def Document.clashing : Document :=
  let operation (id : String) : Document.Operation := ⟨some id, none, none, false, [], none, []⟩
  let item : Document.PathItem :=
    ⟨[], none, none, none, none, none, none, none, none⟩
  { openapi := "3.1.0"
    info := ⟨"Clashing", none, "1"⟩
    servers := []
    paths := [("/a", { item with get := some (operation ""), put := some (operation "3d") }),
      ("/b", { item with get := some (operation "a-b"), put := some (operation "aB") }),
      ("/c", { item with get := some (operation ""), put := some (operation "é") })]
    components := some {
      schemas := ["", "3d", "a-b", "aB", "é"].map fun name => (name, .inline .empty)
      responses := []
      parameters := []
      requestBodies := [] } }

theorem Document.bootstrap_neutral_clashing : ∃ m,
    clashing.extract.prepare (some (.identity clashing.extract)) .typed = .ok (.ready m) ∧
    m.rootOperations.map (·.id) = ["op", "op3d", "aB", "aB2", "op2", "op3"] ∧
    m.schemas.map (·.name) = ["Schema", "Schema3d", "aB", "aB2", "Schema2"] := by
  obtain ⟨t, m, ht, -, hm, -, hungrouped⟩ := Document.bootstrap_neutral (d := clashing) (by decide) .typed
  obtain ⟨m', hm', hops, hschemas⟩ : ∃ m',
      clashing.extract.prepare (some (.identity clashing.extract)) .typed = .ok (.ready m') ∧
      m'.operations.map (·.id) = ["op", "op3d", "aB", "aB2", "op2", "op3"] ∧
      m'.schemas.map (·.name) = ["Schema", "Schema3d", "aB", "aB2", "Schema2"] :=
    ⟨_, rfl, by decide +kernel, by decide +kernel⟩
  cases ht
  obtain rfl : m = m' := by simpa [hm'] using hm.symm
  exact ⟨m, hm, hungrouped.root ▸ hops, hschemas⟩

end ClientGen
