import ClientGen.Proofs.Folding

/-! What folding does not see, and which schema it takes. Objects that differ in the order of members and of
enum values, in formats or in what they require fold alike, onto the first schema that looks like them. -/
namespace ClientGen
open Api (SchemaRecord)
variable {mode : FingerprintMode} {m : TypeMap} {o p : ObjectShape} {record : SchemaRecord}
  {schemas : List SchemaRecord} {key name : String}

theorem Shape.Same.sameMembers (h : (Shape.object o).Same (.object p)) : o.SameMembers p := by
  cases h with
  | object hqs hnames hshapes _ => exact ⟨_, hqs, hnames, hshapes⟩

theorem ObjectShape.fingerprint_eq_none_iff : o.fingerprint mode = none ↔ o.properties = [] := by
  simp only [fingerprint, List.isEmpty_iff, ite_eq_left_iff, reduceCtorEq, imp_false, not_not]

/-- Neither the order of members nor what signatures leave out shows in a fingerprint. -/
theorem ObjectShape.SameMembers.fingerprint_eq (h : o.SameMembers p) (mode : FingerprintMode) :
    o.fingerprint mode = p.fingerprint mode := by
  have hempty : o.properties = [] ↔ p.properties = [] := by
    rw [← List.length_eq_zero_iff, h.length_eq, List.length_eq_zero_iff]
  simp only [fingerprint, List.isEmpty_iff, hempty]
  congr 3
  rw [sortTexts_eq_iff]
  cases mode with
  | names =>
    obtain ⟨qs, hqs, hnames, -⟩ := h
    exact hnames ▸ hqs.map Prod.fst
  | typed => exact memberSignatures_perm h fun m _ t ht => ht.signature_eq

namespace TypeMap

/-- Objects with one fingerprint fold onto one schema, if they fold. -/
theorem typeOf_congr (h : o.fingerprint m.mode = p.fingerprint m.mode) (ho : m.lookup o ≠ none) :
    m.typeOf (.object o) = m.typeOf (.object p) := by
  obtain ⟨name, hname⟩ := Option.ne_none_iff_exists'.mp ho
  have hname' : m.lookup p = some name := by rwa [lookup, ← h]
  rw [typeOf_object_eq_named_iff.mpr hname, typeOf_object_eq_named_iff.mpr hname']

end TypeMap

/-- The schema is an object with the fingerprint of `o`. -/
def Api.SchemaRecord.LooksLike (record : SchemaRecord) (mode : FingerprintMode) (o : ObjectShape) : Prop :=
  ∃ p, record.shape = .object p ∧ p.fingerprint mode = o.fingerprint mode

theorem looksLike_iff (hkey : o.fingerprint mode = some key) :
    record.LooksLike mode o ↔ record.fingerprint mode = some key := by
  rw [Api.SchemaRecord.LooksLike, Api.SchemaRecord.fingerprint, hkey]
  cases hshape : record.shape with
  | object p => simp
  | _ => simp

/-- Folding sees an object only up to the order of its members and of enum values, its formats and what
it requires, at every depth, and takes the first schema declared with the object's fingerprint. -/
theorem TypeMap.folds_onto_first (mode : FingerprintMode) (schemas : List SchemaRecord) (o : ObjectShape) :
    (∀ p, (Shape.object o).Same (.object p) →
      (Shape.object o).signature = (Shape.object p).signature ∧
      o.fingerprint mode = p.fingerprint mode ∧
      ((ofSchemas mode schemas).lookup o ≠ none →
        (ofSchemas mode schemas).typeOf (.object o) = (ofSchemas mode schemas).typeOf (.object p))) ∧
    (∀ name, (ofSchemas mode schemas).lookup o = some name ↔ o.properties ≠ [] ∧
      ∃ before record after, schemas = before ++ record :: after ∧ record.name = name ∧
        record.LooksLike mode o ∧ ∀ q ∈ before, ¬q.LooksLike mode o) ∧
    ((ofSchemas mode schemas).lookup o = none ↔
      o.properties = [] ∨ ∀ record ∈ schemas, ¬record.LooksLike mode o) := by
  refine ⟨fun p h => ?_, ?_⟩
  · have hfingerprint := h.sameMembers.fingerprint_eq mode
    exact ⟨h.signature_eq, hfingerprint, typeOf_congr (by rwa [mode_ofSchemas])⟩
  · cases hkey : o.fingerprint mode with
    | none =>
      have hempty := ObjectShape.fingerprint_eq_none_iff.mp hkey
      simp [lookup_ofSchemas, hkey, hempty]
    | some key =>
      have hne : o.properties ≠ [] := fun he => by
        simp [ObjectShape.fingerprint_eq_none_iff.mpr he] at hkey
      constructor
      · intro name
        rw [lookup_eq_some_iff_first hkey fun record _ => (looksLike_iff hkey).symm]
        simp only [ne_eq, hne, not_false_eq_true, true_and]
      · simp [lookup_ofSchemas, looksLike_iff hkey, hkey, hne]

def ObjectShape.ticket : ObjectShape :=
  ⟨[("state", .string ["open", "closed"] none),
    ("place", .object ⟨[("row", .integer (some "int32")), ("seat", .integer none)], ["row", "seat"], none⟩)],
    ["state", "place"], none⟩

/-- The ticket, with everything in another order and other formats. -/
def ObjectShape.slip : ObjectShape :=
  ⟨[("place", .object ⟨[("seat", .integer none), ("row", .integer (some "int64"))], ["seat", "row"], none⟩),
    ("state", .string ["closed", "open"] (some "word"))],
    ["place", "state"], none⟩

/-- Two schemas that look like a ticket, after one that is no object and one without properties. -/
def ticketSchemas : List SchemaRecord :=
  [⟨"Code", "Code", none, .plainString⟩, ⟨"Anything", "Anything", none, .object .empty⟩,
    ⟨"Ticket", "Ticket", none, .object .ticket⟩, ⟨"Copy", "Copy", none, .object .slip⟩]

theorem TypeMap.folds_onto_first_ticket : (Shape.object .ticket).Same (.object .slip) ∧
    (ofSchemas .typed ticketSchemas).typeOf (.object .slip) = .named "Ticket" := by
  have hsame : (Shape.object .ticket).Same (.object .slip) := by
    refine .object (.swap _ _ []) rfl (.cons (.string _ _ (.swap "closed" "open" [])) (.cons ?_ .nil)) .none
    exact .object (.swap _ _ []) rfl (.cons (.integer _ _) (.cons (.integer _ _) .nil)) .none
  have folds := folds_onto_first .typed ticketSchemas .ticket
  have hbefore : ∀ q ∈ ticketSchemas.take 2, ¬q.LooksLike .typed .ticket := by
    simp [ticketSchemas, Api.SchemaRecord.LooksLike, Shape.plainString, ObjectShape.fingerprint,
      ObjectShape.ticket, ObjectShape.empty]
  have hlookup : (ofSchemas .typed ticketSchemas).lookup .ticket = some "Ticket" :=
    (folds.2.1 "Ticket").mpr ⟨by decide, ticketSchemas.take 2, _, _, rfl, rfl, ⟨_, rfl, rfl⟩, hbefore⟩
  have htypes := (folds.1 _ hsame).2.2 (by simp [hlookup])
  exact ⟨hsame, htypes ▸ typeOf_object_eq_named_iff.mpr hlookup⟩

end ClientGen
