import ClientGen.Proofs.Entries
import ClientGen.Proofs.Signature
import ClientGen.Types.Fingerprint

/-! Folding of objects onto schemas: onto the first one declared with the same fingerprint. A typed
fingerprint tells the members, unless a text within them holds the mark that ends such a text. -/
namespace ClientGen
open Api (SchemaRecord)
variable {mode : FingerprintMode} {m : TypeMap} {o p : ObjectShape} {record : SchemaRecord}
  {schemas : List SchemaRecord} {key name : String}

/-- The fingerprint of a schema that objects can fold onto. -/
def Api.SchemaRecord.fingerprint (mode : FingerprintMode) (record : SchemaRecord) : Option String :=
  match record.shape with
  | .object o => o.fingerprint mode
  | _ => none

namespace TypeMap

theorem add_of_fingerprint_eq_none (h : record.fingerprint m.mode = none) : m.add record = m := by
  rw [Api.SchemaRecord.fingerprint] at h
  rw [add]
  cases hs : record.shape with
  | object o =>
    simp only [hs] at h
    simp only [h]
  | _ => rfl

theorem add_of_fingerprint_eq_some (h : record.fingerprint m.mode = some key) : m.add record =
    if Entries.has m.byFingerprint key then m
    else { m with byFingerprint := m.byFingerprint ++ [(key, record.name)] } := by
  rw [Api.SchemaRecord.fingerprint] at h
  rw [add]
  cases hs : record.shape with
  | object o =>
    simp only [hs] at h
    simp only [h]
  | _ => simp [hs] at h

/-- Under a key stands what stood there, or else a schema that is added with that fingerprint. -/
theorem get?_add : Entries.get? (m.add record).byFingerprint key =
    (Entries.get? m.byFingerprint key).or
      (if record.fingerprint m.mode = some key then some record.name else none) := by
  cases hf : record.fingerprint m.mode with
  | none => simp [add_of_fingerprint_eq_none hf]
  | some k =>
    rw [add_of_fingerprint_eq_some hf]
    by_cases hk : Entries.has m.byFingerprint k
    · obtain ⟨first, hfirst⟩ := Option.isSome_iff_exists.mp hk
      by_cases he : k = key
      · simp [hk, ← he, hfirst]
      · simp [hk, he]
    · simp [hk, Entries.get?_append_singleton]

theorem mode_add : (m.add record).mode = m.mode := by
  rw [add]
  repeat' split
  all_goals rfl

theorem get?_foldl_add : Entries.get? (schemas.foldl add m).byFingerprint key =
    (Entries.get? m.byFingerprint key).or
      ((schemas.find? fun record => record.fingerprint m.mode = some key).map (·.name)) := by
  induction schemas generalizing m with
  | nil => simp
  | cons record schemas ih =>
    rw [List.foldl_cons, ih, get?_add, mode_add, List.find?_cons, Option.or_assoc]
    by_cases h : record.fingerprint m.mode = some key <;> simp [h]

theorem mode_ofSchemas : (ofSchemas mode schemas).mode = mode :=
  schemas.foldlRecOn (motive := fun m => m.mode = mode) add rfl fun _ h _ _ => mode_add.trans h

/-- An object folds onto the first schema declared with its fingerprint. -/
theorem lookup_ofSchemas : (ofSchemas mode schemas).lookup o = (o.fingerprint mode).bind fun key =>
    (schemas.find? fun record => record.fingerprint mode = some key).map (·.name) := by
  rw [lookup, mode_ofSchemas]
  congr 1
  funext key
  rw [ofSchemas, get?_foldl_add, Entries.get?, Option.none_or]

theorem lookup_eq_some_iff : (ofSchemas mode schemas).lookup o = some name ↔
    ∃ key before record after, o.fingerprint mode = some key ∧ schemas = before ++ record :: after ∧
      record.name = name ∧ record.fingerprint mode = some key ∧
      ∀ q ∈ before, q.fingerprint mode ≠ some key := by
  rw [lookup_ofSchemas]
  constructor
  · intro h
    obtain ⟨key, hkey, h⟩ := Option.bind_eq_some_iff.mp h
    obtain ⟨record, hfind, hname⟩ := Option.map_eq_some_iff.mp h
    obtain ⟨hrecord, before, after, rfl, hbefore⟩ := List.find?_eq_some_iff_append.mp hfind
    exact ⟨key, before, record, after, hkey, rfl, hname, by simpa using hrecord, by simpa using hbefore⟩
  · rintro ⟨key, before, record, after, hkey, rfl, hname, hrecord, hbefore⟩
    refine Option.bind_eq_some_iff.mpr ⟨key, hkey, Option.map_eq_some_iff.mpr ⟨record, ?_, hname⟩⟩
    exact List.find?_eq_some_iff_append.mpr
      ⟨by simpa using hrecord, before, after, rfl, by simpa using hbefore⟩

/-- An object folds onto the first of the schemas that are told by its fingerprint. -/
theorem lookup_eq_some_iff_first {Told : SchemaRecord → Prop} (hkey : o.fingerprint mode = some key)
    (htold : ∀ record ∈ schemas, record.fingerprint mode = some key ↔ Told record) :
    (ofSchemas mode schemas).lookup o = some name ↔ ∃ before record after,
      schemas = before ++ record :: after ∧ record.name = name ∧ Told record ∧ ∀ q ∈ before, ¬Told q := by
  rw [lookup_eq_some_iff]
  constructor
  · rintro ⟨key', before, record, after, hkey', rfl, hname, hrecord, hbefore⟩
    obtain rfl : key = key' := Option.some.inj (hkey.symm.trans hkey')
    refine ⟨before, record, after, rfl, hname, (htold record (by simp)).mp hrecord, fun q hq hp => ?_⟩
    exact hbefore q hq ((htold q (by simp [hq])).mpr hp)
  · rintro ⟨before, record, after, rfl, hname, hrecord, hbefore⟩
    refine ⟨key, before, record, after, hkey, rfl, hname, (htold record (by simp)).mpr hrecord,
      fun q hq hp => ?_⟩
    exact hbefore q hq ((htold q (by simp [hq])).mp hp)

/-- Only what folds onto a schema is typed by a name. -/
theorem typeOf_object_eq_named_iff : m.typeOf (.object o) = .named name ↔ m.lookup o = some name := by
  obtain ⟨properties, required, additional⟩ := o
  rw [typeOf, typeOfObject]
  cases hl : m.lookup ⟨properties, required, additional⟩ with
  | some n => simp
  | none => cases additional <;> simp [typeOfExtra]

end TypeMap

theorem ObjectShape.SameMembers.length_eq (h : o.SameMembers p) :
    o.properties.length = p.properties.length := by
  obtain ⟨qs, hqs, hsame⟩ := h
  rw [(sameInOrder_iff.mp hsame).length_eq, hqs.length_eq]

theorem ObjectShape.fingerprint_typed (h : o.properties ≠ []) : o.fingerprint .typed =
    some ("\x1f".intercalate ((sortedMembers o.properties).map memberText)) := by
  simp [fingerprint, h, sortTexts_memberSignatures]

/-- Typed fingerprints show the members, where no text within them ends early. -/
theorem ObjectShape.fingerprint_typed_eq_iff (ho : o.properties ≠ []) (hp : p.properties ≠ [])
    (hdo : o.isDelimited) (hdp : p.isDelimited) :
    o.fingerprint .typed = p.fingerprint .typed ↔ o.SameMembers p := by
  constructor
  · intro h
    rw [fingerprint_typed ho, fingerprint_typed hp, Option.some.injEq, ← String.toList_inj] at h
    simp only [String.toList_intercalate, List.map_map, Function.comp_def] at h
    have hne (q : ObjectShape) (hq : q.properties ≠ []) : sortedMembers q.properties ≠ [] :=
      mt sortedMembers_eq_nil.mp hq
    have hso := forall_mem_sortedMembers (isDelimited_iff.mp hdo).1
    have hsp := forall_mem_sortedMembers (isDelimited_iff.mp hdp).1
    have htexts :
        ['\x1f'].intercalate ((sortedMembers o.properties).map fun m => (memberText m).toList) ++ [] =
          ['\x1f'].intercalate ((sortedMembers p.properties).map fun m => (memberText m).toList) ++
            [] := by
      simpa using h
    refine sameMembers_of_sorted (sameMembers_of_texts ?_ ?_ hso hsp ?_ ?_ ?_ htexts).1
    · exact iff_of_false (hne o ho) (hne p hp)
    · simp [endMarks]
    · simp
    · simp
    · exact fun m _ => m.2.readsBack
  · intro h
    have hperm := memberSignatures_perm h fun m _ t ht => ht.signature_eq
    simp [fingerprint, ho, hp, sortTexts_eq_iff.mpr hperm]

theorem fingerprint_record_eq_iff (ho : o.properties ≠ []) (hdo : o.isDelimited)
    (hdr : record.shape.isDelimited)
    (hkey : o.fingerprint .typed = some key) :
    record.fingerprint .typed = some key ↔ ∃ p, record.shape = .object p ∧ o.SameMembers p := by
  constructor
  · intro h
    rw [Api.SchemaRecord.fingerprint] at h
    split at h
    · rename_i p hshape
      have hp : p.properties ≠ [] := fun he => by simp [ObjectShape.fingerprint, he] at h
      rw [hshape] at hdr
      exact ⟨p, hshape, (ObjectShape.fingerprint_typed_eq_iff ho hp hdo hdr).mp (hkey.trans h.symm)⟩
    · cases h
  · rintro ⟨p, hshape, hsame⟩
    have hp : p.properties ≠ [] := fun he =>
      ho (List.length_eq_zero_iff.mp (by simp [hsame.length_eq, he]))
    rw [hshape] at hdr
    rw [Api.SchemaRecord.fingerprint, hshape]
    exact ((ObjectShape.fingerprint_typed_eq_iff ho hp hdo hdr).mpr hsame).symm.trans hkey

/-- With typed fingerprints, objects whose texts end where they should are confused with none: their
fingerprints are equal only for the same members, and they fold exactly onto the first schema that has
these. -/
theorem TypeMap.typed_folds_iff (ho : o.properties ≠ []) (hdo : o.isDelimited)
    (hds : ∀ record ∈ schemas, record.shape.isDelimited) :
    (∀ p : ObjectShape, p.properties ≠ [] → p.isDelimited →
      (o.fingerprint .typed = p.fingerprint .typed ↔ o.SameMembers p)) ∧
    ∀ name, (ofSchemas .typed schemas).typeOf (.object o) = .named name ↔
      ∃ before record after, schemas = before ++ record :: after ∧ record.name = name ∧
        (∃ p, record.shape = .object p ∧ o.SameMembers p) ∧
        ∀ q ∈ before, ¬∃ p, q.shape = .object p ∧ o.SameMembers p := by
  refine ⟨fun p hp hdp => ObjectShape.fingerprint_typed_eq_iff ho hp hdo hdp, fun name => ?_⟩
  have hkey := ObjectShape.fingerprint_typed ho
  rw [typeOf_object_eq_named_iff, lookup_eq_some_iff_first hkey fun record hmem =>
    fingerprint_record_eq_iff ho hdo (hds record hmem) hkey]

/-- One property, with listed values. -/
def ObjectShape.choice (values : List String) : ObjectShape := ⟨[("x", .string values none)], [], none⟩

/-- The order of the values is no part of what is told. -/
theorem TypeMap.typed_folds_choice :
    (ofSchemas .typed [⟨"P", "P", none, .object (.choice ["b", "a"])⟩]).typeOf
        (.object (.choice ["a", "b"])) =
      .named "P" := by
  refine ((typed_folds_iff (o := .choice ["a", "b"]) (by decide) (by decide) (by decide)).2 "P").mpr
    ⟨[], _, [], rfl, rfl, ⟨_, rfl, ?_⟩, by simp⟩
  exact ⟨[("x", .string ["b", "a"] none)], .rfl, rfl, .cons (.string none none (.swap "b" "a" [])) .nil⟩

/-- The mark within a value is taken for the mark between values. -/
theorem TypeMap.typed_confuses_choices :
    (ObjectShape.choice ["a|b"]).fingerprint .typed =
      (ObjectShape.choice ["a", "b"]).fingerprint .typed ∧
    ¬(ObjectShape.choice ["a|b"]).SameMembers (.choice ["a", "b"]) ∧
    (ofSchemas .typed [⟨"P", "P", none, .object (.choice ["a|b"])⟩]).typeOf
        (.object (.choice ["a", "b"])) =
      .named "P" := by
  have key : (ObjectShape.choice ["a|b"]).fingerprint .typed =
      (ObjectShape.choice ["a", "b"]).fingerprint .typed := by
    have sorted : sortTexts ["a", "b"] = ["a", "b"] := List.mergeSort_of_pairwise (by decide)
    have single (text : String) : sortTexts [text] = [text] := List.mergeSort_singleton text
    simp [ObjectShape.fingerprint, ObjectShape.choice, memberSignatures, Shape.signature, sorted,
      single]
  refine ⟨key, ?_, ?_⟩
  · rintro ⟨qs, hqs, hname, hshape⟩
    obtain rfl := List.perm_singleton.mp hqs
    obtain ⟨⟨_, _, hvalues⟩, _⟩ := List.forall₂_cons.mp hshape
    simpa using hvalues.length_eq
  · rw [typeOf_object_eq_named_iff, lookup_eq_some_iff]
    exact ⟨_, [], _, [], key.symm, rfl, rfl, rfl, by simp⟩

end ClientGen
