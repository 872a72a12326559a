import ClientGen.Package
import ClientGen.Proofs.Document.Reference
import ClientGen.Proofs.Model
import ClientGen.Proofs.Renaming.Identifiers

/-! The names of declared types in a package that is generated. They are words, they are distinct, and
none of them is taken. -/
namespace ClientGen
open Api (Operation)
open Identifier (IsWord)
variable {api : Api} {t : MappingTable} {mode : FingerprintMode} {m : Model} {o : Options}
  {target : Target} {files : List SourceFile} {name : String}

def Model.typeNames (m : Model) : List String := m.schemas.map (·.name)

/-- Whether a name is in use by the generated code of a target. -/
def Target.isTaken (m : Model) : Target → String → Bool
  | .typescript => TypeScript.isTaken m
  | .python => Python.isTaken m

theorem Api.isWord_of_prepare (h : api.prepare (some t) mode = .ok (.ready m)) :
    ∀ name ∈ m.typeNames, IsWord name := by
  obtain ⟨_, ha, -, -⟩ := Api.prepare_eq_ready h
  exact List.forall_mem_map.mpr (Renaming.isWord_names ha)

theorem Api.nodup_typeNames_of_prepare (hd : (api.schemas.map (·.name)).Nodup)
    (h : api.prepare (some t) mode = .ok (.ready m)) : m.typeNames.Nodup := by
  obtain ⟨_, ha, -, -⟩ := Api.prepare_eq_ready h
  obtain ⟨_, _, hr, -, -, hs⟩ := MappingTable.apply_eq_ok.mp ha
  rw [Model.typeNames, hs]
  exact nodup_names_rename hr hd

namespace Model

/-- A package is generated if each of its files is rendered. -/
theorem exists_render_of_generate (h : m.generate target o = .ok files) {a : Artifact} (ha : a ∈ m.plan o) :
    ∃ ls, target.render m o a = .ok ls := by
  obtain ⟨file, -, hfile⟩ := exists_of_forall₂ (mapM_eq_ok.mp h).flip ha
  obtain ⟨ls, hls, -⟩ := exceptMap_eq_ok.mp hfile
  exact ⟨ls, hls⟩

theorem checkTypeNames_eq_ok {isTaken : String → Bool} (h : m.checkTypeNames target isTaken = .ok ()) :
    ∀ name ∈ m.typeNames, isTaken name = false := by
  rw [checkTypeNames] at h
  split at h
  · cases h
  · rename_i hnone
    intro name hname
    obtain ⟨s, hs, rfl⟩ := List.mem_map.mp hname
    simpa using List.find?_eq_none.mp hnone s hs

/-- Nothing is rendered under a name that is taken. -/
theorem not_taken_of_render {a : Artifact} {ls : Lines} (h : target.render m o a = .ok ls) :
    ∀ name ∈ m.typeNames, target.isTaken m name = false := by
  cases target
  all_goals
    obtain ⟨_, hcheck, -⟩ := bind_eq_ok.mp h
    exact checkTypeNames_eq_ok hcheck

theorem not_taken_of_generate (h : m.generate target o = .ok files) :
    ∀ name ∈ m.typeNames, target.isTaken m name = false := by
  have htypes : Artifact.types ∈ m.plan o := by simp [plan]
  obtain ⟨ls, hls⟩ := exists_render_of_generate h htypes
  exact not_taken_of_render hls

end Model

namespace Text
variable {s back front : List Char}

theorem before?_eq_some : before? back s = some front ↔ s = front ++ back := by
  rw [before?, Option.map_eq_some_iff]
  constructor
  · rintro ⟨rest, hrest, rfl⟩
    rw [after?_eq_some] at hrest
    simpa using congrArg List.reverse hrest
  · rintro rfl
    exact ⟨front.reverse, after?_eq_some.mpr (by simp), by simp⟩

end Text

namespace TypeScript

theorem mem_validatorNames_iff : name ∈ m.typeNames.map schemaConst ↔
    ∃ base, Text.before? "Schema".toList name.toList = some base ∧ ∃ s ∈ m.schemas, s.name.toList = base := by
  simp only [Model.typeNames, List.map_map, List.mem_map, Text.before?_eq_some]
  constructor
  · rintro ⟨s, hs, rfl⟩
    exact ⟨s.name.toList, String.toList_append, s, hs, rfl⟩
  · rintro ⟨_, he, s, hs, rfl⟩
    rw [← String.toList_append, String.toList_inj] at he
    exact ⟨s, hs, he.symm⟩

/-- What a name in use may be: a word of the language, one of the package, or one made for a service or
for another schema. -/
theorem isTaken_eq_false_iff : isTaken m name = false ↔
    name ∉ reserved ∧ name ∉ generatedNames ∧ name ∉ m.serviceClassNames ∧
      name ∉ m.typeNames.map schemaConst := by
  rw [mem_validatorNames_iff, isTaken]
  cases Text.before? "Schema".toList name.toList with
  | none => simp [and_assoc]
  | some base =>
    simp only [Bool.or_eq_false_iff, decide_eq_false_iff_not, List.any_eq_false, decide_eq_true_eq,
      Option.some.injEq, exists_eq_left', not_exists, not_and, and_assoc]

end TypeScript

theorem Python.isTaken_eq_false_iff : isTaken m name = false ↔
    name ∉ keywords ∧ name ∉ generatedNames ∧ name ∉ m.serviceClassNames := by
  rw [Bool.eq_false_iff, isTaken]
  simp only [ne_eq, Bool.or_eq_true, decide_eq_true_eq, not_or, and_assoc]

end ClientGen
