import ClientGen.Proofs.Entries
import ClientGen.Proofs.Shape

/-! Objects at any depth of a shape, and what is well-formed about them: whatever is renamed stays so. -/
namespace ClientGen
variable {s : Shape} {o : ObjectShape} {f : String → String}

/-- An object that occurs in a shape, at any depth. -/
inductive Shape.HasObject (o : ObjectShape) : Shape → Prop
  | here : HasObject o (.object o)
  | item {s : Shape} : HasObject o s → HasObject o (.array s)
  | property {p : ObjectShape} {e : String × Shape} : e ∈ p.properties → HasObject o e.2 →
    HasObject o (.object p)
  | additional {p : ObjectShape} {s : Shape} : s ∈ p.additional → HasObject o s →
    HasObject o (.object p)

/-- No property is there twice, and what is required is there. -/
structure ObjectShape.WellFormed (o : ObjectShape) : Prop where
  distinct : (Entries.keys o.properties).Nodup
  declared : ∀ name ∈ o.required, name ∈ Entries.keys o.properties

/-- All objects within are well-formed. -/
def Shape.WellFormed (s : Shape) : Prop := ∀ o, s.HasObject o → o.WellFormed

/-- A shape without other shapes within, nor references. -/
structure Shape.Plain (s : Shape) : Prop where
  object : ∀ o, ¬s.HasObject o
  references : s.references = []

theorem Shape.plain_unknown : Shape.unknown.Plain := ⟨fun _ h => (by cases h), rfl⟩

theorem Shape.plain_string (values : List String) (format : Option String) :
    (Shape.string values format).Plain := ⟨fun _ h => (by cases h), rfl⟩

/-- An object of the renamed shape is an object of the shape, renamed. -/
theorem Shape.HasObject.of_rename (h : (s.rename f).HasObject o) :
    ∃ p, s.HasObject p ∧ p.rename f = o := by
  induction s using Shape.induct with
  | array item ih =>
    cases h with
    | item h =>
      obtain ⟨p, hp, he⟩ := ih h
      exact ⟨p, .item hp, he⟩
  | object q hproperties hadditional =>
    cases h with
    | here => exact ⟨q, .here, rfl⟩
    | property hmem h =>
      rw [ObjectShape.rename_eq] at hmem
      obtain ⟨e, he, rfl⟩ := List.mem_map.mp hmem
      obtain ⟨p, hp, hpo⟩ := hproperties e he h
      exact ⟨p, .property he hp, hpo⟩
    | additional hmem h =>
      rw [ObjectShape.rename_eq] at hmem
      obtain ⟨t, ht, rfl⟩ := Option.map_eq_some_iff.mp hmem
      obtain ⟨p, hp, hpo⟩ := hadditional t ht h
      exact ⟨p, .additional ht hp, hpo⟩
  | _ => cases h

theorem ObjectShape.WellFormed.rename (h : o.WellFormed) (f : String → String) :
    (o.rename f).WellFormed := by
  have hkeys : Entries.keys (o.rename f).properties = Entries.keys o.properties := by
    rw [ObjectShape.rename_eq, Entries.keys, List.map_map]
    rfl
  have hrequired : (o.rename f).required = o.required := by rw [ObjectShape.rename_eq]
  exact ⟨hkeys ▸ h.distinct, by rw [hkeys, hrequired]; exact h.declared⟩

theorem Shape.WellFormed.rename (h : s.WellFormed) (f : String → String) : (s.rename f).WellFormed := by
  intro o ho
  obtain ⟨p, hp, rfl⟩ := ho.of_rename
  exact (h p hp).rename f

end ClientGen
