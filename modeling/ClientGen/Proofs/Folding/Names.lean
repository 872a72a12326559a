import ClientGen.Proofs.Folding.First

/-! Fingerprints of property names. They tell which names an object has, unless a name holds the mark
that separates names. -/
namespace ClientGen
open Api (SchemaRecord)
variable {o p : ObjectShape} {record : SchemaRecord} {schemas : List SchemaRecord} {key : String}

namespace ObjectShape

def names (o : ObjectShape) : List String := Entries.keys o.properties

/-- The same property names, in any order. -/
def SameNames (o p : ObjectShape) : Prop := ∀ name, name ∈ o.names ↔ name ∈ p.names

/-- No property name holds the separator. -/
def isUnmarked (o : ObjectShape) : Bool := o.names.all (avoids ['\x1f'])

theorem names_eq_nil_iff : o.names = [] ↔ o.properties = [] := List.map_eq_nil_iff

theorem fingerprint_names (h : o.properties ≠ []) :
    o.fingerprint .names = some ("\x1f".intercalate (sortTexts o.names)) := by
  simp [fingerprint, h, names, Entries.keys]

/-- Names between separators are found again, where none holds the separator. -/
theorem perm_of_fingerprint_names (ho : o.properties ≠ []) (hp : p.properties ≠ []) (hmo : o.isUnmarked)
    (hmp : p.isUnmarked) (h : o.fingerprint .names = p.fingerprint .names) : o.names.Perm p.names := by
  rw [fingerprint_names ho, fingerprint_names hp, Option.some.injEq, ← String.toList_inj] at h
  simp only [String.toList_intercalate] at h
  have sorted_ne {q : ObjectShape} (hq : q.properties ≠ []) : sortTexts q.names ≠ [] :=
    mt (sortTexts_eq_nil.trans names_eq_nil_iff).mp hq
  have unmarked {q : ObjectShape} (hq : q.isUnmarked) :
      ∀ name ∈ sortTexts q.names, ∀ c ∈ name.toList, ¬c ∈ ['\x1f'] := fun name hmem =>
    avoids_iff.mp (List.all_eq_true.mp hq name ((sortTexts_perm q.names).mem_iff.mp hmem))
  have htexts :
      ['\x1f'].intercalate ((sortTexts o.names).map String.toList) ++ [] =
        ['\x1f'].intercalate ((sortTexts p.names).map String.toList) ++ [] := by
    simpa using h
  obtain ⟨hsorted, -⟩ := forall₂_of_intercalate (P := (· ∈ ['\x1f'])) (R := Eq)
    (iff_of_false (sorted_ne ho) (sorted_ne hp)) (by simp) (by simp) (by simp)
    (fun x hx y hy q q' hq hq' hxy =>
      (append_inj_of_marks (unmarked hmo x hx) (unmarked hmp y hy) hq hq' hxy).imp String.toList_inj.mp id)
    htexts
  rw [List.forall₂_eq_eq_eq] at hsorted
  exact sortTexts_eq_iff.mp hsorted

section
variable (ho : o.properties ≠ []) (hp : p.properties ≠ []) (hdo : o.names.Nodup) (hdp : p.names.Nodup)
include ho hp hdo hdp

theorem fingerprint_names_congr (h : o.SameNames p) : o.fingerprint .names = p.fingerprint .names := by
  have hperm : o.names.Perm p.names := (List.perm_ext_iff_of_nodup hdo hdp).mpr h
  rw [fingerprint_names ho, fingerprint_names hp, sortTexts_eq_iff.mpr hperm]

theorem fingerprint_names_eq_iff (hmo : o.isUnmarked) (hmp : p.isUnmarked) :
    o.fingerprint .names = p.fingerprint .names ↔ o.SameNames p :=
  ⟨fun h _ => (perm_of_fingerprint_names ho hp hmo hmp h).mem_iff, fingerprint_names_congr ho hp hdo hdp⟩

end

theorem SameNames.properties_ne_nil (h : o.SameNames p) (ho : o.properties ≠ []) : p.properties ≠ [] := by
  obtain ⟨name, hname⟩ := List.exists_mem_of_ne_nil _ (mt names_eq_nil_iff.mp ho)
  exact mt names_eq_nil_iff.mpr (List.ne_nil_of_mem ((h name).mp hname))

end ObjectShape

/-- The schemas that are told by an object's names are those that have the same names. -/
theorem fingerprint_record_names_iff (ho : o.properties ≠ []) (hdo : o.names.Nodup) (hmo : o.isUnmarked)
    (hr : ∀ p, record.shape = .object p → p.names.Nodup ∧ p.isUnmarked)
    (hkey : o.fingerprint .names = some key) :
    record.fingerprint .names = some key ↔ ∃ p, record.shape = .object p ∧ o.SameNames p := by
  rw [Api.SchemaRecord.fingerprint, ← hkey]
  cases hshape : record.shape with
  | object p =>
    obtain ⟨hdp, hmp⟩ := hr p hshape
    simp only [Shape.object.injEq, exists_eq_left']
    by_cases hp : p.properties = []
    · refine iff_of_false (by simp [ObjectShape.fingerprint, hp, ho]) fun h => h.properties_ne_nil ho hp
    · rw [eq_comm]
      exact ObjectShape.fingerprint_names_eq_iff ho hp hdo hdp hmo hmp
  | _ => simp [hkey]

/-- With fingerprints of names, objects of the same property names always have one fingerprint. Where no
name holds the separator, no others do, and an object folds exactly onto the first schema that has its
names. -/
theorem TypeMap.names_folds_iff (ho : o.properties ≠ []) (hdo : o.names.Nodup) :
    (∀ p, p.properties ≠ [] → p.names.Nodup → o.SameNames p →
      o.fingerprint .names = p.fingerprint .names) ∧
    (o.isUnmarked → ∀ p, p.properties ≠ [] → p.names.Nodup → p.isUnmarked →
      (o.fingerprint .names = p.fingerprint .names ↔ o.SameNames p)) ∧
    (o.isUnmarked → (∀ record ∈ schemas, ∀ p, record.shape = .object p → p.names.Nodup ∧ p.isUnmarked) →
      ∀ name, (ofSchemas .names schemas).typeOf (.object o) = .named name ↔
        ∃ before record after, schemas = before ++ record :: after ∧ record.name = name ∧
          (∃ p, record.shape = .object p ∧ o.SameNames p) ∧
          ∀ q ∈ before, ¬∃ p, q.shape = .object p ∧ o.SameNames p) := by
  refine ⟨fun p hp hdp => ObjectShape.fingerprint_names_congr ho hp hdo hdp,
    fun hmo p hp hdp => ObjectShape.fingerprint_names_eq_iff ho hp hdo hdp hmo, fun hmo hschemas name => ?_⟩
  have hkey := ObjectShape.fingerprint_names ho
  rw [typeOf_object_eq_named_iff, lookup_eq_some_iff_first hkey fun record hmem =>
    fingerprint_record_names_iff ho hdo hmo (hschemas record hmem) hkey]

/-- An object of yes-or-no properties. -/
def ObjectShape.flags (names : List String) : ObjectShape := ⟨names.map (·, .boolean), [], none⟩

/-- Of two schemas with the same names the first counts. -/
theorem TypeMap.names_folds_flags :
    (ofSchemas .names [⟨"Read", "Read", none, .object (.flags ["read"])⟩,
        ⟨"Access", "Access", none, .object (.flags ["write", "read"])⟩,
        ⟨"Rights", "Rights", none, .object (.flags ["read", "write"])⟩]).typeOf
        (.object (.flags ["read", "write"])) = .named "Access" := by
  refine ((names_folds_iff (o := .flags ["read", "write"]) (by decide) (by decide)).2.2 (by decide) ?_
    "Access").mpr ⟨[_], _, [_], rfl, rfl, ⟨_, rfl, fun _ => (List.Perm.swap "write" "read" []).mem_iff⟩, ?_⟩
  · simp only [List.forall_mem_cons, List.not_mem_nil, false_implies, implies_true, Shape.object.injEq,
      forall_eq', and_true]
    decide
  · simp only [List.mem_singleton, forall_eq, Shape.object.injEq, exists_eq_left']
    exact fun h => absurd ((h "write").mp (by decide)) (by decide)

/-- The separator within a name is taken for the one between names. -/
theorem TypeMap.names_confuse_separator :
    (ObjectShape.flags ["a\x1fb"]).fingerprint .names =
      (ObjectShape.flags ["a", "b"]).fingerprint .names ∧
    ¬(ObjectShape.flags ["a\x1fb"]).SameNames (.flags ["a", "b"]) ∧
    (ofSchemas .names [⟨"P", "P", none, .object (.flags ["a\x1fb"])⟩]).typeOf
        (.object (.flags ["a", "b"])) = .named "P" := by
  have key : (ObjectShape.flags ["a\x1fb"]).fingerprint .names =
      (ObjectShape.flags ["a", "b"]).fingerprint .names := by
    have sorted : sortTexts ["a", "b"] = ["a", "b"] := List.mergeSort_of_pairwise (by decide)
    have single : sortTexts ["a\x1fb"] = ["a\x1fb"] := List.mergeSort_singleton _
    simp [ObjectShape.fingerprint, ObjectShape.flags, sorted, single]
  refine ⟨key, fun h => absurd ((h "a").mpr (by decide)) (by decide), ?_⟩
  rw [typeOf_object_eq_named_iff, lookup_eq_some_iff]
  exact ⟨_, [], _, [], key.symm, rfl, rfl, rfl, by simp⟩

end ClientGen
