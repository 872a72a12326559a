import Mathlib.Data.List.Forall2
import ClientGen.Api.Basic

/-! Shapes whose references are renamed. Nothing else about them changes, and how a reference is
renamed depends on that reference alone. -/
namespace ClientGen
variable {f g : String → String} {R : String → String → Prop}

/-- What holds of an object when it holds of everything within holds of every shape. -/
@[elab_as_elim]
theorem Shape.induct {P : Shape → Prop} (string : ∀ values format, P (.string values format))
    (integer : ∀ format, P (.integer format)) (number : ∀ format, P (.number format))
    (boolean : P .boolean) (array : ∀ item, P item → P (.array item))
    (object : ∀ o : ObjectShape, (∀ p ∈ o.properties, P p.2) → (∀ s ∈ o.additional, P s) →
      P (.object o))
    (reference : ∀ name, P (.reference name)) (unknown : P .unknown) (s : Shape) : P s :=
  @Shape.rec P (fun o => P (.object o)) (fun ps => ∀ p ∈ ps, P p.2) (fun extra => ∀ s ∈ extra, P s)
    (fun p => P p.2) string integer number boolean array (fun _ h => h) reference unknown
    (fun properties required extra => object ⟨properties, required, extra⟩)
    (by simp) (by simp_all) (by simp) (by simp) (fun _ _ h => h) s

theorem renameMembers_eq (f : String → String) (ps : List (String × Shape)) :
    renameMembers f ps = ps.map fun p => (p.1, p.2.rename f) := by
  induction ps with
  | nil => rfl
  | cons p ps ih => rw [renameMembers, ih, List.map_cons]

theorem renameAdditional_eq (f : String → String) (extra : Option Shape) :
    renameAdditional f extra = extra.map (Shape.rename f) := by cases extra <;> rfl

theorem ObjectShape.rename_eq (f : String → String) (o : ObjectShape) :
    o.rename f = ⟨o.properties.map fun p => (p.1, p.2.rename f), o.required,
      o.additional.map (Shape.rename f)⟩ := by
  cases o
  rw [ObjectShape.rename, renameMembers_eq, renameAdditional_eq]

theorem mem_referencesOfMembers {a : String} {ps : List (String × Shape)} :
    a ∈ referencesOfMembers ps ↔ ∃ p ∈ ps, a ∈ p.2.references := by
  induction ps with
  | nil => simp [referencesOfMembers]
  | cons p ps ih => simp [referencesOfMembers, ih]

theorem mem_referencesOfAdditional {a : String} {extra : Option Shape} :
    a ∈ referencesOfAdditional extra ↔ ∃ s ∈ extra, a ∈ s.references := by
  cases extra <;> simp [referencesOfAdditional]

theorem ObjectShape.mem_references {a : String} {o : ObjectShape} :
    a ∈ o.references ↔
      (∃ p ∈ o.properties, a ∈ p.2.references) ∨ ∃ s ∈ o.additional, a ∈ s.references := by
  cases o
  rw [ObjectShape.references, List.mem_append, mem_referencesOfMembers, mem_referencesOfAdditional]

/-- Two renamings in turn are one. -/
theorem Shape.rename_rename (f g : String → String) (s : Shape) :
    (s.rename f).rename g = s.rename (g ∘ f) := by
  induction s using Shape.induct with
  | array item ih => simp only [Shape.rename, ih]
  | object o hp he =>
    simp only [Shape.rename, ObjectShape.rename_eq, List.map_map, Option.map_map]
    congr 2
    · exact List.map_congr_left fun p hmem => by simp [hp p hmem]
    · exact Option.map_congr fun s hmem => he s hmem
  | _ => rfl

/-- Renamings that agree on the references of a shape rename it alike. -/
theorem Shape.rename_congr (s : Shape) (h : ∀ a ∈ s.references, f a = g a) :
    s.rename f = s.rename g := by
  induction s using Shape.induct with
  | array item ih => simp only [Shape.rename, ih h]
  | object o hp he =>
    simp only [Shape.references, ObjectShape.mem_references] at h
    simp only [Shape.rename, ObjectShape.rename_eq]
    congr 2
    · exact List.map_congr_left fun p hmem => by rw [hp p hmem fun a ha => h a (.inl ⟨p, hmem, ha⟩)]
    · exact Option.map_congr fun s hmem => he s hmem fun a ha => h a (.inr ⟨s, hmem, ha⟩)
  | reference name => simp only [Shape.rename, h name (List.mem_singleton_self name)]
  | _ => rfl

/-- The references of the renamed shape are renamed references of the shape. -/
theorem Shape.exists_of_mem_references_rename {a : String} (s : Shape)
    (h : a ∈ (s.rename f).references) : ∃ b ∈ s.references, f b = a := by
  induction s using Shape.induct with
  | array item ih => exact ih h
  | object o hp he =>
    simp only [Shape.rename, Shape.references, ObjectShape.mem_references, ObjectShape.rename_eq,
      List.mem_map, Option.mem_def, Option.map_eq_some_iff] at h ⊢
    rcases h with ⟨_, ⟨p, hmem, rfl⟩, ha⟩ | ⟨_, ⟨s, hmem, rfl⟩, ha⟩
    · obtain ⟨b, hb, rfl⟩ := hp p hmem ha
      exact ⟨b, .inl ⟨p, hmem, hb⟩, rfl⟩
    · obtain ⟨b, hb, rfl⟩ := he s hmem ha
      exact ⟨b, .inr ⟨s, hmem, hb⟩, rfl⟩
  | reference name => exact ⟨name, List.mem_singleton_self name, (List.mem_singleton.mp h).symm⟩
  | _ => cases h

/-- The same shape but for the names of references, which `R` relates place by place. -/
inductive Shape.Matches (R : String → String → Prop) : Shape → Shape → Prop
  | string values format : Matches R (.string values format) (.string values format)
  | integer format : Matches R (.integer format) (.integer format)
  | number format : Matches R (.number format) (.number format)
  | boolean : Matches R .boolean .boolean
  | array {s t : Shape} : Matches R s t → Matches R (.array s) (.array t)
  | object {o p : ObjectShape} : o.properties.map Prod.fst = p.properties.map Prod.fst →
    List.Forall₂ (Matches R) (o.properties.map Prod.snd) (p.properties.map Prod.snd) →
    o.required = p.required → Option.Rel (Matches R) o.additional p.additional →
    Matches R (.object o) (.object p)
  | reference {a b : String} : R a b → Matches R (.reference a) (.reference b)
  | unknown : Matches R .unknown .unknown

/-- Renaming keeps everything but names, however deep. -/
theorem Shape.matches_rename (s : Shape) (h : ∀ a ∈ s.references, R a (f a)) :
    s.Matches R (s.rename f) := by
  induction s using Shape.induct with
  | string values format => exact .string values format
  | integer format => exact .integer format
  | number format => exact .number format
  | boolean => exact .boolean
  | array item ih => exact .array (ih h)
  | object o hp he =>
    simp only [Shape.references, ObjectShape.mem_references] at h
    simp only [Shape.rename, ObjectShape.rename_eq]
    refine .object (by simp [Function.comp_def]) ?_ rfl ?_
    · rw [List.map_map, List.forall₂_map_right_iff, List.forall₂_map_left_iff, List.forall₂_same]
      exact fun p hmem => hp p hmem fun a ha => h a (.inl ⟨p, hmem, ha⟩)
    · cases hs : o.additional with
      | none => exact .none
      | some s => exact .some (he s hs fun a ha => h a (.inr ⟨s, hs, ha⟩))
  | reference name => exact .reference (h name (List.mem_singleton_self name))
  | unknown => exact .unknown

end ClientGen
