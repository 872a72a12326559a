import ClientGen.Types.Fingerprint
import ClientGen.Proofs.Entries
import ClientGen.Proofs.Extraction.Shape

/-! The declared types that type expressions mention. They are referred to by shapes, or stand for
objects that fold onto schemas. -/
namespace ClientGen
open Api (SchemaRecord)
variable {a : String} {names : List String} {mode : FingerprintMode} {m : TypeMap} {s : Shape}
  {o : ObjectShape} {record : SchemaRecord} {schemas : List SchemaRecord} {type : TypeExpr}

/-- Whether a declared type stands somewhere in the expression. -/
inductive TypeExpr.Mentions (a : String) : TypeExpr → Prop
  | named : Mentions a (.named a)
  | array {item} : Mentions a item → Mentions a (.array item)
  | map {value} : Mentions a value → Mentions a (.map value)

inductive Declaration.Mentions (a : String) : Declaration → Prop
  | field {fields additional f} : f ∈ fields → f.type.Mentions a → Mentions a (.object fields additional)
  | additional {fields value} : value.Mentions a → Mentions a (.object fields (some value))
  | synonym {target} : target.Mentions a → Mentions a (.synonym target)

theorem TypeExpr.mentions_iff : type.Mentions a ↔ type.name? = some a := by
  constructor
  · intro h
    induction h with
    | named => rfl
    | array _ ih => exact ih
    | map _ ih => exact ih
  · intro h
    induction type with
    | named name =>
      cases h
      exact .named
    | array item ih => exact .array (ih h)
    | map value ih => exact .map (ih h)
    | _ => cases h

namespace TypeMap

/-- Objects fold onto these names only. -/
def Within (names : List String) (m : TypeMap) : Prop := ∀ e ∈ m.byFingerprint, e.2 ∈ names

theorem within_add (h : m.Within names) (hr : record.name ∈ names) : (m.add record).Within names := by
  rw [add]
  split
  · split
    · split
      · exact h
      · intro e he
        rcases List.mem_append.mp he with he | he
        · exact h e he
        · exact List.mem_singleton.mp he ▸ hr
    · exact h
  · exact h

theorem within_ofSchemas : (ofSchemas mode schemas).Within (schemas.map (·.name)) :=
  schemas.foldlRecOn add (fun _ h => nomatch h) fun _ h _ hs => within_add h (List.mem_map_of_mem hs)

theorem mem_of_lookup (h : m.Within names) (hl : m.lookup o = some a) : a ∈ names := by
  obtain ⟨key, _, hg⟩ := Option.bind_eq_some_iff.mp hl
  exact h _ (Entries.mem_of_get? hg)

/-- Whatever the type of a shape mentions is among the names. -/
theorem mem_of_mentions_typeOf (hm : m.Within names) (hs : s.Within names)
    (h : (m.typeOf s).Mentions a) : a ∈ names := by
  induction s using Shape.induct with
  | string values format => cases values <;> cases h
  | array item ih =>
    obtain _ | h := h
    exact ih hs h
  | object o _ hextra =>
    obtain ⟨properties, required, additional⟩ := o
    rw [typeOf, typeOfObject] at h
    split at h
    · rename_i name hl
      cases h
      exact mem_of_lookup hm hl
    · cases additional with
      | none => cases h
      | some value =>
        obtain _ | _ | h := h
        exact hextra value rfl ((ObjectShape.within_iff.mp hs).2 value rfl) h
  | reference name =>
    cases h
    exact hs a (List.mem_singleton_self a)
  | _ => cases h

/-- The same for declarations, with fields and additional properties. -/
theorem mem_of_mentions_declare (hm : m.Within names) (hs : record.shape.Within names)
    (h : (m.declare record).Mentions a) : a ∈ names := by
  rw [declare] at h
  split at h
  · rename_i o ho
    rw [ho] at hs
    split at h
    · cases h with
      | synonym h => exact mem_of_mentions_typeOf hm (ho ▸ hs) h
    · obtain ⟨hprops, hextra⟩ := ObjectShape.within_iff.mp hs
      generalize hadd : o.additional.map m.typeOf = additional at h
      cases h with
      | field hf h =>
        obtain ⟨p, hp, rfl⟩ := List.mem_map.mp hf
        exact mem_of_mentions_typeOf hm (hprops p hp) h
      | additional h =>
        obtain ⟨value, hv, rfl⟩ := Option.map_eq_some_iff.mp hadd
        exact mem_of_mentions_typeOf hm (hextra value hv) h
  · cases h
  · cases h with
    | synonym h => exact mem_of_mentions_typeOf hm hs h

end TypeMap
end ClientGen
