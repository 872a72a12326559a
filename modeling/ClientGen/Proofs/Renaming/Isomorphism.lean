import ClientGen.Proofs.Records
import ClientGen.Proofs.Renaming.Basic

/-! Applying a table keeps every record in its place, and every reference on the record it was on. -/
namespace ClientGen
open Api (Operation SchemaRecord)
variable {t : MappingTable} {ops ops' : List Operation} {schemas schemas' : List SchemaRecord}
  {r : Renaming} {ids used : List String}

/-- A reference to a schema is followed to the schema in the same place, and to no other; one that
leads nowhere is left as it is. -/
structure Follows (before after : List SchemaRecord) (a b : String) : Prop where
  place : ∀ i : Nat, (before.map (·.name))[i]? = some a →
    ∀ j : Nat, (after.map (·.name))[j]? = some b ↔ j = i
  stray : a ∉ before.map (·.name) → b = a

/-- The operations under new identifiers, with their references renamed. -/
def renamedOperations (r : Renaming) (ops : List Operation) (ids : List String) : List Operation :=
  ops.zipWith (Operation.renamed r.apply) ids

/-- A table is applied in three steps: schema names, identifiers, references. -/
theorem MappingTable.apply_eq_ok : t.apply ops schemas = .ok (ops', schemas') ↔
    ∃ r ids, Renaming.ofTable t schemas = .ok r ∧ Api.renamedIds t ops [] = .ok ids ∧
      ops' = renamedOperations r ops ids ∧ schemas' = schemas.map (·.rename r.apply) := by
  simp only [MappingTable.apply, bind_eq_ok, pure_eq_ok, Prod.mk.injEq]
  constructor
  · rintro ⟨r, hr, ids, hi, rfl, rfl⟩
    exact ⟨r, ids, hr, hi, rfl, rfl⟩
  · rintro ⟨r, ids, hr, hi, rfl, rfl⟩
    exact ⟨r, hr, ids, hi, rfl, rfl⟩

theorem Api.length_renamedIds (h : Api.renamedIds t ops used = .ok ids) :
    ids.length = ops.length := by
  induction ops generalizing used ids with
  | nil =>
    cases h
    rfl
  | cons op ops ih =>
    rw [Api.renamedIds] at h
    split at h
    · simp only [bind_eq_ok, pure_eq_ok] at h
      obtain ⟨_, _, _, hs, rfl⟩ := h
      simp [ih hs]
    · simp only [bind_eq_ok, pure_eq_ok] at h
      obtain ⟨_, hs, rfl⟩ := h
      simp [ih hs]

theorem names_map_rename (f : String → String) (schemas : List SchemaRecord) :
    (schemas.map (·.rename f)).map (·.name) = (schemas.map (·.name)).map f := by
  rw [List.map_map, List.map_map]
  rfl

theorem nodup_names_rename (h : Renaming.ofTable t schemas = .ok r)
    (hd : (schemas.map (·.name)).Nodup) : ((schemas.map (·.rename r.apply)).map (·.name)).Nodup := by
  rw [names_map_rename]
  exact hd.map_on fun _ ha _ hb he => Renaming.apply_injective h ha hb he

/-- Renaming leads every reference to the place of the schema that it was on. -/
theorem follows_apply (h : Renaming.ofTable t schemas = .ok r) (hd : (schemas.map (·.name)).Nodup)
    (a : String) : Follows schemas (schemas.map (·.rename r.apply)) a (r.apply a) where
  stray ha := Renaming.apply_eq_self h ha
  place i hi j := by
    rw [names_map_rename, List.getElem?_map, Option.map_eq_some_iff]
    have ha := List.mem_of_getElem? hi
    constructor
    · rintro ⟨b, hj, he⟩
      have hb := List.mem_of_getElem? hj
      rw [Renaming.apply_injective h hb ha he] at hj
      obtain ⟨hlt, _⟩ := List.getElem?_eq_some_iff.mp hj
      exact (List.getElem?_inj hlt hd).mp (hj.trans hi.symm)
    · rintro rfl
      exact ⟨a, hi, rfl⟩

theorem matches_renamedOperations {R : String → String → Prop} (hl : ids.length = ops.length)
    (hR : ∀ a, R a (r.apply a)) :
    List.Forall₂ (Operation.Matches R) ops (renamedOperations r ops ids) := by
  induction ops generalizing ids with
  | nil => exact .nil
  | cons op ops ih =>
    cases ids with
    | nil => cases hl
    | cons id ids =>
      exact .cons (Operation.matches_renamed id fun a _ => hR a) (ih (Nat.succ.inj hl))

/-- Records keep their places, names stay distinct, and nothing changes but names and identifiers:
every reference, at any depth of any shape, is followed to the record it was on. -/
theorem MappingTable.apply_isomorphism (hd : (schemas.map (·.name)).Nodup)
    (h : t.apply ops schemas = .ok (ops', schemas')) :
    (schemas'.map (·.name)).Nodup ∧
      List.Forall₂ (SchemaRecord.Matches (Follows schemas schemas')) schemas schemas' ∧
      List.Forall₂ (Operation.Matches (Follows schemas schemas')) ops ops' := by
  obtain ⟨r, ids, hr, hi, rfl, rfl⟩ := MappingTable.apply_eq_ok.mp h
  have hf := follows_apply hr hd
  refine ⟨nodup_names_rename hr hd, ?_, matches_renamedOperations (Api.length_renamedIds hi) hf⟩
  rw [List.forall₂_map_right_iff, List.forall₂_same]
  exact fun s _ => SchemaRecord.matches_rename fun a _ => hf a

/-- What is closed stays closed: the new names of references are new names of schemas. -/
theorem MappingTable.closed_apply (hc : Api.Closed ops schemas)
    (h : t.apply ops schemas = .ok (ops', schemas')) : Api.Closed ops' schemas' := by
  obtain ⟨r, ids, hr, _, rfl, rfl⟩ := MappingTable.apply_eq_ok.mp h
  have hmem {a : String} {s : Shape} (hs : ∀ a ∈ s.references, a ∈ schemas.map (·.name))
      (ha : a ∈ (s.rename r.apply).references) :
      a ∈ (schemas.map (·.rename r.apply)).map (·.name) := by
    obtain ⟨b, hb, rfl⟩ := s.exists_of_mem_references_rename ha
    exact names_map_rename r.apply schemas ▸ List.mem_map_of_mem (hs b hb)
  refine ⟨nodup_names_rename hr hc.distinct, fun op hop a ha => ?_, fun s hs a ha => ?_⟩
  · obtain ⟨old, hold, id, rfl⟩ := exists_of_mem_zipWith hop
    obtain ⟨s, hs, ha⟩ := ha
    have hs : s ∈ old.shapes.map (Shape.rename r.apply) := old.shapes_renameReferences r.apply ▸ hs
    obtain ⟨shape, hshape, rfl⟩ := List.mem_map.mp hs
    exact hmem (fun b hb => hc.operations old hold b ⟨shape, hshape, hb⟩) ha
  · obtain ⟨old, hold, rfl⟩ := List.mem_map.mp hs
    exact hmem (hc.schemas old hold) ha

/-- Two schemas that refer to each other, now called `a` and `b`. -/
def twins (a b : String) : List SchemaRecord :=
  [{ name := a, declaredName := "A", description := none, shape := .array (.reference b) },
   { name := b, declaredName := "B", description := none,
     shape := .object ⟨[("twin", .reference a)], ["twin"], none⟩ }]

/-- An operation that returns the schema now called `a`. -/
def getter (a : String) : Operation where
  id := "get"
  extractedId := "get"
  method := .get
  path := "/twin"
  summary := none
  description := none
  deprecated := false
  pathParams := []
  queryParams := []
  body := none
  response := some (.reference a)
  stream := none

/-- Each schema gets the name of the other. -/
def swap : MappingTable := ⟨[], [("A", "B"), ("B", "A")]⟩

theorem MappingTable.apply_isomorphism_swap :
    ((twins "B" "A").map (·.name)).Nodup ∧
      List.Forall₂ (SchemaRecord.Matches (Follows (twins "A" "B") (twins "B" "A")))
        (twins "A" "B") (twins "B" "A") ∧
      List.Forall₂ (Operation.Matches (Follows (twins "A" "B") (twins "B" "A")))
        [getter "A"] [getter "B"] :=
  MappingTable.apply_isomorphism (t := swap) (by decide) rfl

end ClientGen
