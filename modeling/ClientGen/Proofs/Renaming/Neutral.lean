import ClientGen.Proofs.Renaming.Isomorphism

/-! Tables that give no new names. All names are repaired then, and repaired names never clash. -/
namespace ClientGen
open Api (Operation SchemaRecord)
variable {t : MappingTable} {api : Api} {ops : List Operation} {schemas : List SchemaRecord}
  {used ids : List String} {r : Renaming}

/-- Every entry maps a name to itself, and none names a service. -/
structure MappingTable.Neutral (t : MappingTable) : Prop where
  operation : ∀ id mapping, t.operation id = some mapping → mapping = .method id
  schema : ∀ name target, t.schema name = some target → target = name

theorem MappingTable.neutral_empty : MappingTable.empty.Neutral where
  operation _ _ h := nomatch h
  schema _ _ h := nomatch h

theorem MappingTable.neutral_identity (api : Api) : (identity api).Neutral where
  operation id mapping h := by
    have hmem := Entries.mem_ofList _ (Entries.mem_of_get? h)
    obtain ⟨op, -, he⟩ := List.mem_map.mp hmem
    cases he
    rfl
  schema name target h := by
    have hmem := Entries.mem_ofList _ (Entries.mem_of_get? h)
    obtain ⟨s, -, he⟩ := List.mem_map.mp hmem
    cases he
    rfl

namespace Renaming

theorem target?_of_neutral (ht : t.Neutral) (s : SchemaRecord) : target? t s = none := by
  rw [target?]
  cases hs : t.schema s.declaredName with
  | none => rfl
  | some target => simp [ht.schema _ _ hs]

theorem choose_of_neutral (ht : t.Neutral) : choose t schemas r = .ok r := by
  induction schemas with
  | nil => rfl
  | cons s schemas ih => simpa [choose, target?_of_neutral ht] using ih

/-- With no name claimed, nothing stands in the way of repair. -/
theorem exists_repair (hr : r.claimed = []) : ∃ r', repair schemas used r = .ok r' := by
  induction schemas generalizing used r with
  | nil => exact ⟨r, rfl⟩
  | cons s schemas ih =>
    rw [repair]
    by_cases hs : Entries.has r.names s.name
    · rw [if_pos hs]
      exact ih hr
    · rw [if_neg hs]
      dsimp only
      have hfree : Entries.get? r.claimed (Identifier.repaired s.declaredName "Schema") = none := by
        rw [hr]
        rfl
      rw [hfree]
      exact ih hr

theorem ofTable_of_neutral (ht : t.Neutral) : ofTable t schemas = repair schemas [] empty := by
  rw [ofTable, choose_of_neutral ht]
  rfl

end Renaming

namespace Api

/-- The identifier of an operation that no table gives one. -/
def Operation.repairedId (used : List String) (op : Operation) : String :=
  Identifier.fresh used (Identifier.repaired op.extractedId "op")

theorem renamedIds_cons_of_neutral (ht : t.Neutral) (op : Operation) :
    renamedIds t (op :: ops) used =
      (op.repairedId used :: ·) <$> renamedIds t ops (op.repairedId used :: used) := by
  have hnone : ((t.operation op.extractedId).map OperationMapping.methodName).filter
      (· ≠ op.extractedId) = none := by
    cases hop : t.operation op.extractedId with
    | none => rfl
    | some mapping => simp [ht.operation _ _ hop, OperationMapping.methodName]
  rw [renamedIds, hnone]
  rfl

/-- Repair gives every operation an identifier that none has before it. -/
theorem exists_renamedIds (ht : t.Neutral) (ops : List Operation) (used : List String) :
    ∃ ids, renamedIds t ops used = .ok ids ∧ Identifier.Apart used ids := by
  induction ops generalizing used with
  | nil => exact ⟨[], rfl, Identifier.apart_nil used⟩
  | cons op ops ih =>
    obtain ⟨ids, hids, hapart⟩ := ih (op.repairedId used :: used)
    rw [renamedIds_cons_of_neutral ht, hids]
    exact ⟨_, rfl, hapart.cons fun id => by rw [List.mem_cons, or_comm]; rfl⟩

theorem renamedIds_of_neutral (ht : t.Neutral) (ops : List Operation) (used : List String) :
    renamedIds t ops used = renamedIds .empty ops used := by
  induction ops generalizing used with
  | nil => rfl
  | cons op ops ih =>
    rw [renamedIds_cons_of_neutral ht, renamedIds_cons_of_neutral MappingTable.neutral_empty]
    rw [ih]

end Api

/-- Tables that give no new names are all alike. -/
theorem MappingTable.apply_of_neutral (ht : t.Neutral) (ops : List Operation)
    (schemas : List SchemaRecord) : t.apply ops schemas = MappingTable.empty.apply ops schemas := by
  rw [apply, apply, Renaming.ofTable_of_neutral ht, Renaming.ofTable_of_neutral neutral_empty,
    Api.renamedIds_of_neutral ht]

/-- They can always be applied, and leave all identifiers distinct. -/
theorem MappingTable.exists_apply_of_neutral (ht : t.Neutral) (ops : List Operation)
    (schemas : List SchemaRecord) : ∃ r ids, Renaming.ofTable t schemas = .ok r ∧ ids.Nodup ∧
      ids.length = ops.length ∧
      t.apply ops schemas = .ok (renamedOperations r ops ids, schemas.map (·.rename r.apply)) := by
  obtain ⟨r, hr⟩ : ∃ r, Renaming.ofTable t schemas = .ok r := by
    rw [Renaming.ofTable_of_neutral ht]
    exact Renaming.exists_repair rfl
  obtain ⟨ids, hids, hnodup, -⟩ := Api.exists_renamedIds ht ops []
  exact ⟨r, ids, hr, hnodup, Api.length_renamedIds hids,
    MappingTable.apply_eq_ok.mpr ⟨r, ids, hr, hids, rfl, rfl⟩⟩

theorem ids_renamedOperations (hl : ids.length = ops.length) :
    (renamedOperations r ops ids).map (·.id) = ids :=
  map_zipWith_right hl fun _ _ => rfl

end ClientGen
