import ClientGen.Proofs.Extraction.AllOf

/-! A schema with one part and nothing of its own has the shape of that part. It is the shape that a merge
would give it, unless the schema declares additional properties that the part lacks. -/
namespace ClientGen
variable {table : SchemaTable} {path : List String} {b s p : SchemaBody} {f : Schema → Shape}
  {o o' : ObjectShape} {flat more : List SchemaBody} {n : Nat} {shape : Shape}

namespace SchemaBody

/-- An object by its own keywords. -/
structure IsPlainObject (b : SchemaBody) : Prop where
  allOf : b.allOf = []
  oneOf : b.oneOf = []
  anyOf : b.anyOf = []
  enum : b.enum = []
  const : b.const = none
  type : b.type.bind TypeSet.nonNull = some .object ∨
    b.type = none ∧ (b.properties ≠ [] ∨ b.additional ≠ .absent)

/-- The object that a merge builds for a schema, if it ends. -/
def MergesTo (table : SchemaTable) (b : SchemaBody) (o : ObjectShape) : Prop :=
  ∃ n merged, merge? table n [] b .empty = some merged ∧ merged.dropUndeclared = o

/-- A schema whose only part is written in place, with neither properties nor required names beside it. -/
structure HasOnlyPart (s p : SchemaBody) : Prop where
  allOf : s.allOf = [.inline p]
  properties : s.properties = []
  required : s.required = []

theorem IsPlainObject.plainShape?_eq (h : b.IsPlainObject) (shape? : Schema → Option Shape) :
    b.plainShape? shape? = (b.objectShape? shape?).map .object := by
  have henum : stringEnum b.enum = some [] := by rw [h.enum]; rfl
  simp only [plainShape?, henum, h.const]
  rcases h.type with htype | ⟨htype, hown⟩
  · obtain ⟨types, htypes, hobject⟩ := Option.bind_eq_some_iff.mp htype
    simp only [htypes, hobject]
  · simp only [htype]
    rcases hown with hown | hown
    · simp [hown]
    · cases ha : b.additional with
      | absent => exact (hown ha).elim
      | flag allowed => simp
      | schema extra => simp

/-- An object is looked at as if its parts were merged, also where it has none. -/
theorem shape?_eq_merge? (table : SchemaTable) (hp : p.IsPlainObject ∨ p.Merges) : ∃ j, ∀ n,
    (Schema.inline p).shape? table (n + 1) =
      (merge? table (n + j) [] p .empty).map (.object ·.dropUndeclared) := by
  rcases hp with hp | hp
  · refine ⟨1, fun n => ?_⟩
    have hnone : table.parts [] p = [] := by rw [SchemaTable.parts, hp.allOf]; rfl
    have hmerge : merge? table (n + 1) [] p .empty = p.mergeOwn? (Schema.shape? table n) .empty := by
      rw [merge?_succ, hnone]
      rfl
    rw [Schema.shape?, hp.allOf, hp.oneOf, hp.anyOf, hmerge]
    simp only [List.isEmpty_nil, Bool.and_self, if_true, hp.plainShape?_eq, objectShape?, Option.map_map]
    rfl
  · exact ⟨0, Schema.shape?_of_merges hp⟩

theorem mergeAll_append : mergeAll f (flat ++ more) o = mergeAll f more (mergeAll f flat o) := by
  simp only [mergeAll, membersOf, List.flatMap_append, List.map_append, Entries.putAll_append,
    List.foldl_append, List.findSome?_append, Option.or_assoc]

theorem extra?_eq_none_iff : b.extra? f = none ↔ b.declared? = none := by
  rw [extra?, declared?]
  cases b.additional with
  | absent => simp
  | flag allowed => cases allowed <;> simp
  | schema extra => simp

namespace HasOnlyPart
variable (h : s.HasOnlyPart p)
include h

theorem parts_eq (path : List String) : table.parts path s = [(path, p)] := by
  rw [SchemaTable.parts, h.allOf]
  rfl

theorem shape?_succ (n : Nat) :
    (Schema.inline s).shape? table (n + 1) = (Schema.inline p).shape? table n := by
  simp [Schema.shape?, h.allOf, h.properties, h.required]

theorem merge?_succ (n : Nat) : merge? table (n + 1) [] s o =
    (merge? table n [] p o).bind (s.mergeOwn? (Schema.shape? table n)) := by
  rw [SchemaBody.merge?_succ, h.parts_eq]
  simp

/-- All that the schema adds to its part is a declaration of additional properties. -/
theorem mergeAll_eq : mergeAll f (table.flatten [] s) .empty =
    let merged := mergeAll f (table.flatten [] p) .empty
    { merged with additional := merged.additional.or (s.extra? f) } := by
  rw [SchemaTable.flatten_eq table [] s, h.parts_eq, List.flatMap_singleton, mergeAll_append]
  simp only [mergeAll, membersOf, List.flatMap_singleton, h.properties, h.required, List.map_nil,
    List.foldl_nil, List.findSome?_singleton]
  rfl

/-- A merge gives the object of the part, with additional properties that the part does not declare. -/
theorem eq_of_mergesTo (hp : p.MergesTo table o) (hs : s.MergesTo table o') :
    o' = { o with additional := o.additional.or (s.extra? (Schema.shape table)) } := by
  obtain ⟨_, merged, hmerged, rfl⟩ := hp
  obtain ⟨_, all, hall, rfl⟩ := hs
  rw [← merge?_eq_mergeAll hall, ← merge?_eq_mergeAll hmerged, h.mergeAll_eq]
  rfl

/-- A merge that has been through the part ends, if it need not look at additional properties. -/
theorem exists_mergesTo (hp : p.MergesTo table o) (hextra : s.declared? = none ∨ o.additional ≠ none) :
    ∃ o', s.MergesTo table o' := by
  obtain ⟨n, merged, hmerged, rfl⟩ := hp
  have hread : (s.mergeOwn? (Schema.shape? table n) merged).isSome := by
    refine isSome_mergeOwn?.mpr ⟨by simp [h.properties], fun hnone extra hdeclared => ?_⟩
    rcases hextra with hextra | hextra
    · rw [hextra] at hdeclared
      cases hdeclared
    · exact (hextra hnone).elim
  obtain ⟨all, hall⟩ := Option.isSome_iff_exists.mp hread
  refine ⟨all.dropUndeclared, n + 1, all, ?_, rfl⟩
  rw [h.merge?_succ, hmerged]
  exact hall

end HasOnlyPart
end SchemaBody

/-- Two parts, the second of which declares additional properties. -/
def labelled : SchemaBody :=
  { SchemaBody.empty with
    allOf := [.ref "#/components/schemas/Base", .inline { SchemaBody.empty with additional := .flag true }] }

end ClientGen
