import ClientGen.Api.Extract
import ClientGen.Proofs.Identifier
import ClientGen.Proofs.Outcome

/-! What extracted records are told apart by: every operation gets an identifier of its own, and schemas
keep the names that they are declared under. -/
namespace ClientGen
variable {used bases more ids rest : List String} {base id : String} {table : SchemaTable}
  {paths : Entries String Document.PathItem}

namespace Extract

theorem length_uniqueFrom : (uniqueFrom used bases).length = bases.length := by
  induction bases generalizing used with
  | nil => rfl
  | cons base bases ih => rw [uniqueFrom, List.length_cons, ih, List.length_cons]

theorem apart_uniqueFrom (used bases : List String) : Identifier.Apart used (uniqueFrom used bases) := by
  induction bases generalizing used with
  | nil => exact Identifier.apart_nil used
  | cons base bases ih =>
    rw [uniqueFrom]
    exact (ih _).cons fun id => by rw [List.mem_append, List.mem_singleton]

theorem uniqueFrom_append : uniqueFrom used (bases ++ more) =
    uniqueFrom used bases ++ uniqueFrom (used ++ uniqueFrom used bases) more := by
  induction bases generalizing used with
  | nil => simp [uniqueFrom]
  | cons base bases ih => simp [uniqueFrom, ih]

/-- Every identifier is found with those before it as the used ones. -/
theorem eq_fresh_of_uniqueIds (hl : bases.length = ids.length)
    (h : uniqueIds (bases ++ base :: more) = ids ++ id :: rest) : id = Identifier.fresh ids base := by
  rw [uniqueIds, uniqueFrom_append, List.nil_append, uniqueFrom] at h
  obtain ⟨rfl, hids⟩ := List.append_inj h (by rw [length_uniqueFrom, hl])
  exact (List.cons.inj hids).1.symm

theorem extractedIds_operations : (operations table paths).map (·.extractedId) =
    uniqueIds ((endpoints paths).map fun (path, _, method, op) => baseId path method op) := by
  have hlength : (uniqueIds ((endpoints paths).map fun (path, _, method, op) =>
      baseId path method op)).length = (endpoints paths).length := by
    rw [uniqueIds, length_uniqueFrom, List.length_map]
  exact map_zipWith_right hlength fun _ _ => rfl

theorem declaredNames_schemas : (schemas table).map (·.declaredName) = Entries.keys table := by
  rw [schemas, List.map_map]
  rfl

end Extract

/-- No two extracted operations have one identifier. -/
theorem Document.nodup_extractedIds (d : Document) :
    (d.extract.operations.map (·.extractedId)).Nodup := by
  rw [Document.extract, Extract.extractedIds_operations]
  exact (Extract.apart_uniqueFrom _ _).1

end ClientGen
