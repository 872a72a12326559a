import ClientGen.TypeScript.Package
import ClientGen.Proofs.Package.Basic

/-! What the files of a TypeScript package declare. -/
namespace ClientGen.TypeScript
variable {m : Model} {o : Options} {s : Api.SchemaRecord}

/-- An interface, or an alias. -/
def DeclaresType (ls : Lines) (name : String) : Prop :=
  "export interface " ++ name ++ " \x7b" ∈ ls ∨
    ∃ target, "export type " ++ name ++ " = " ++ target ++ ";" ∈ ls

/-- The constant that validates the type of the same name. -/
def DeclaresValidator (ls : Lines) (name : String) : Prop :=
  ∃ value, "export const " ++ schemaConst name ++ ": z.ZodType<" ++ name ++ "> = " ++ value ∈ ls

theorem declaresType_typeDeclaration (v : SchemaView) : DeclaresType (typeDeclaration v) v.name := by
  rw [typeDeclaration]
  split
  · exact .inl List.mem_cons_self
  · exact .inr ⟨_, List.mem_singleton_self _⟩
  · exact .inr ⟨_, List.mem_singleton_self _⟩

/-- Every schema has its line in the file of types. -/
theorem declaresType_types (hs : s ∈ m.schemas) : DeclaresType (types m o) s.name := by
  have hsub : typeDeclaration (.of m.types type s) ⊆ types m o := fun l hl =>
    List.mem_append_right _ <| Lines.mem_apart (List.mem_append_right _ hl)
      (List.mem_map_of_mem (List.mem_map_of_mem hs))
  exact (declaresType_typeDeclaration (.of m.types type s)).imp (hsub ·) (.imp fun _ h => hsub h)

theorem declaresValidator_validatorDeclaration (v : SchemaView) :
    DeclaresValidator (validatorDeclaration v) v.name := by
  rw [validatorDeclaration]
  split
  · exact ⟨_, List.mem_cons_self⟩
  · rename_i values _
    refine ⟨"z.enum([" ++ ", ".intercalate (values.map quoted) ++ "]);", List.mem_singleton.mpr ?_⟩
    simp only [String.append_assoc]
  · rename_i target _
    refine ⟨target ++ ";", List.mem_singleton.mpr ?_⟩
    simp only [String.append_assoc]

theorem declaresValidator_validators (hs : s ∈ m.schemas) :
    DeclaresValidator (validators m) s.name := by
  obtain ⟨value, hv⟩ := declaresValidator_validatorDeclaration (.of m.types validator s)
  refine ⟨value, Lines.mem_apart hv (List.mem_cons_of_mem _ (List.mem_cons_of_mem _ ?_))⟩
  exact List.mem_map_of_mem (List.mem_map_of_mem hs)

end ClientGen.TypeScript
