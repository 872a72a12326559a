import Mathlib.Logic.Relation
import ClientGen.Proofs.Extraction.AllOf

/-! The chain of a schema: what `allOf` leads to, over parts in place and into entries of the table. A merge
goes into no entry that it is in already, and still it reads the whole chain. -/
namespace ClientGen
variable {table : SchemaTable} {path : List String} {b c d : SchemaBody} {o : ObjectShape} {name : String}

namespace SchemaTable

/-- One step along `allOf`: to a part in place, or into the entry that a part refers to. -/
inductive Part (table : SchemaTable) (b : SchemaBody) : SchemaBody → Prop
  | inline {c : SchemaBody} : .inline c ∈ b.allOf → Part table b c
  | entry {ref name : String} {c : SchemaBody} : .ref ref ∈ b.allOf → Reference.schemaName? ref = some name →
    table.body? name = some c → Part table b c

/-- Whether `allOf` leads from one schema to another, in any number of steps. -/
def OnChain (table : SchemaTable) : SchemaBody → SchemaBody → Prop := Relation.ReflTransGen table.Part

theorem self_mem_flatten : b ∈ table.flatten path b := mem_flatten.mpr (.inr rfl)

theorem onChain_of_mem_flatten {path : List String} {b : SchemaBody} (h : c ∈ table.flatten path b) :
    table.OnChain b c := by
  rcases mem_flatten.mp h with ⟨part, hpart, hc⟩ | rfl
  · have hless := weight_lt_of_mem_parts hpart
    have hrest : table.OnChain part.2 c := onChain_of_mem_flatten hc
    rcases mem_parts.mp hpart with ⟨-, hinline⟩ | ⟨ref, name, hmem, hname, -, -, htarget⟩
    · exact hrest.head (.inline hinline)
    · exact hrest.head (.entry hmem hname htarget)
  · exact .refl
termination_by table.weight path b

/-- What is read is closed under steps, but for the entries that the merge is in already. -/
theorem mem_flatten_of_part {path : List String} {b : SchemaBody} (hc : c ∈ table.flatten path b)
    (hd : table.Part c d) : d ∈ table.flatten path b ∨ ∃ name ∈ path, table.body? name = some d := by
  rcases mem_flatten.mp hc with ⟨part, hpart, hc⟩ | rfl
  · have hless := weight_lt_of_mem_parts hpart
    rcases mem_flatten_of_part hc hd with hd | ⟨name, hname, hbody⟩
    · exact .inl (mem_flatten.mpr (.inl ⟨part, hpart, hd⟩))
    · rcases mem_parts.mp hpart with ⟨hpath, -⟩ | ⟨ref, into, -, -, -, hpath, htarget⟩
      · exact .inr ⟨name, hpath ▸ hname, hbody⟩
      · rw [hpath] at hname
        rcases List.mem_cons.mp hname with rfl | hname
        · -- The entry that this part goes into is read as a whole, itself included.
          obtain rfl : part.2 = d := Option.some.inj (htarget.symm.trans hbody)
          exact .inl (mem_flatten.mpr (.inl ⟨part, hpart, self_mem_flatten⟩))
        · exact .inr ⟨name, hname, hbody⟩
  · cases hd with
    | inline hmem =>
      have hpart : (path, d) ∈ table.parts path c := mem_parts.mpr (.inl ⟨rfl, hmem⟩)
      exact .inl (mem_flatten.mpr (.inl ⟨_, hpart, self_mem_flatten⟩))
    | @entry ref name _ hmem hname hbody =>
      by_cases hfree : name ∈ path
      · exact .inr ⟨name, hfree, hbody⟩
      · have hpart : (name :: path, d) ∈ table.parts path c :=
          mem_parts.mpr (.inr ⟨ref, name, hmem, hname, hfree, rfl, hbody⟩)
        exact .inl (mem_flatten.mpr (.inl ⟨_, hpart, self_mem_flatten⟩))
termination_by table.weight path b

/-- A merge reads the chain of its schema, and nothing else. -/
theorem mem_flatten_nil_iff : c ∈ table.flatten [] b ↔ table.OnChain b c := by
  refine ⟨onChain_of_mem_flatten, fun h => ?_⟩
  induction h with
  | refl => exact self_mem_flatten
  | tail _ hstep ih =>
    rcases mem_flatten_of_part ih hstep with h | ⟨name, hname, -⟩
    · exact h
    · cases hname

/-- The properties of the merged object are those that the schemas on the chain declare. -/
theorem Flattens.mem_keys_iff (h : table.Flattens (table.flatten [] b) o) :
    name ∈ Entries.keys o.properties ↔ ∃ c, table.OnChain b c ∧ name ∈ Entries.keys c.properties := by
  rw [h.names, List.mem_eraseDups]
  simp only [← mem_flatten_nil_iff, Entries.keys, SchemaBody.membersOf, List.map_flatMap, List.mem_flatMap]

end SchemaTable
end ClientGen
