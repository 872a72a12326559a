import ClientGen.Python.Package
import ClientGen.Proofs.Package.Basic

/-! What the files of a Python package declare. -/
namespace ClientGen.Python
variable {m : Model} {o : Options} {s : Api.SchemaRecord}

/-- Declares a class with the given base, or an alias. -/
def Declares (base : String) (ls : Lines) (name : String) : Prop :=
  "class " ++ name ++ base ∈ ls ∨ ∃ value, name ++ " = " ++ value ∈ ls

def DeclaresType : Lines → String → Prop := Declares "(TypedDict):"

def DeclaresModel : Lines → String → Prop := Declares "(BaseModel):"

theorem declaresType_typeDeclaration : DeclaresType (typeDeclaration m o s) s.name := by
  rw [typeDeclaration]
  split
  · split
    · have hcall : s.name ++ " = TypedDict(" = s.name ++ " = " ++ "TypedDict(" := by
        rw [String.append_assoc]
        rfl
      exact .inr ⟨"TypedDict(", hcall ▸ List.mem_cons_self⟩
    · exact .inl List.mem_cons_self
  · exact .inr ⟨_, List.mem_singleton_self _⟩
  · exact .inr ⟨_, List.mem_singleton_self _⟩

theorem declaresModel_validatorDeclaration : DeclaresModel (validatorDeclaration m o s) s.name := by
  rw [validatorDeclaration]
  split
  · exact .inl List.mem_cons_self
  · exact .inr ⟨_, List.mem_singleton_self _⟩
  · exact .inr ⟨_, List.mem_singleton_self _⟩

/-- Every declaration is in the file, after two empty lines. -/
theorem subset_flatMap {declaration : Api.SchemaRecord → Lines} (hs : s ∈ m.schemas) :
    declaration s ⊆ m.schemas.flatMap fun s => "" :: "" :: declaration s := fun _ hl =>
  List.mem_flatMap.mpr ⟨s, hs, List.mem_cons_of_mem _ (List.mem_cons_of_mem _ hl)⟩

/-- Every schema has its line in the file of types. -/
theorem declaresType_types (hs : s ∈ m.schemas) : DeclaresType (types m o) s.name := by
  have hsub : typeDeclaration m o s ⊆ types m o := fun l hl =>
    List.mem_append_right _ (subset_flatMap hs hl)
  exact declaresType_typeDeclaration.imp (hsub ·) (.imp fun _ h => hsub h)

theorem declaresModel_validators (hs : s ∈ m.schemas) : DeclaresModel (validators m o) s.name := by
  have hsub : validatorDeclaration m o s ⊆ validators m o := fun l hl =>
    List.mem_append_left _ (List.mem_append_right _ (subset_flatMap hs hl))
  exact declaresModel_validatorDeclaration.imp (hsub ·) (.imp fun _ h => hsub h)

end ClientGen.Python
