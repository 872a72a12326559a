import ClientGen.Proofs.Folding
import ClientGen.Proofs.Renaming.LastTable
import ClientGen.Proofs.Types

/-! Renamed schemas take the place of the old ones in every type. This needs fingerprints of property
names: a typed fingerprint shows the names of references, and they change. -/
namespace ClientGen
open Api (Operation SchemaRecord)
variable {t : MappingTable} {ops ops' : List Operation} {schemas schemas' : List SchemaRecord}
  {f g : String → String} {names : List String}

def TypeExpr.rename (f : String → String) : TypeExpr → TypeExpr
  | .named name => .named (f name)
  | .array item => .array (item.rename f)
  | .map value => .map (value.rename f)
  | type => type

def Field.rename (f : String → String) (field : Field) : Field := { field with type := field.type.rename f }

def Declaration.rename (f : String → String) : Declaration → Declaration
  | .object fields additional => .object (fields.map (Field.rename f)) (additional.map (TypeExpr.rename f))
  | .enum values => .enum values
  | .synonym type => .synonym (type.rename f)

/-- Renamings that agree on what is mentioned rename alike. -/
theorem TypeExpr.rename_congr {type : TypeExpr} (h : ∀ a, type.Mentions a → f a = g a) :
    type.rename f = type.rename g := by
  induction type with
  | named name => rw [rename, rename, h name .named]
  | array item ih => rw [rename, rename, ih fun a ha => h a (.array ha)]
  | map value ih => rw [rename, rename, ih fun a ha => h a (.map ha)]
  | _ => rfl

theorem Declaration.rename_congr {d : Declaration} (h : ∀ a, d.Mentions a → f a = g a) :
    d.rename f = d.rename g := by
  cases d with
  | object fields additional =>
    have hfields : fields.map (Field.rename f) = fields.map (Field.rename g) := by
      refine List.map_congr_left fun field hmem => ?_
      rw [Field.rename, Field.rename, TypeExpr.rename_congr fun a ha => h a (.field hmem ha)]
    have hextra : additional.map (TypeExpr.rename f) = additional.map (TypeExpr.rename g) := by
      refine Option.map_congr fun value hv => TypeExpr.rename_congr fun a ha => h a ?_
      rw [Option.mem_def.mp hv]
      exact .additional ha
    rw [rename, rename, hfields, hextra]
  | enum values => rfl
  | synonym type => rw [rename, rename, TypeExpr.rename_congr fun a ha => h a (.synonym ha)]

/-! ### Types under a renaming -/

theorem ObjectShape.fingerprint_names_rename (f : String → String) (o : ObjectShape) :
    (o.rename f).fingerprint .names = o.fingerprint .names := by
  rw [rename_eq, fingerprint, fingerprint]
  simp only [List.isEmpty_map, List.map_map, Function.comp_def]

theorem Api.SchemaRecord.fingerprint_names_rename (f : String → String) (s : SchemaRecord) :
    (s.rename f).fingerprint .names = s.fingerprint .names := by
  rw [fingerprint, fingerprint, SchemaRecord.rename]
  cases s.shape with
  | object o => exact o.fingerprint_names_rename f
  | _ => rfl

namespace TypeMap

/-- An object folds onto the schema that it would have folded onto, under its new name. -/
theorem lookup_rename (f : String → String) (schemas : List SchemaRecord) (o : ObjectShape) :
    (ofSchemas .names (schemas.map (·.rename f))).lookup (o.rename f) =
      ((ofSchemas .names schemas).lookup o).map f := by
  rw [lookup_ofSchemas, lookup_ofSchemas, o.fingerprint_names_rename]
  cases o.fingerprint .names with
  | none => rfl
  | some key =>
    simp only [Option.bind_some, List.find?_map, Function.comp_def,
      SchemaRecord.fingerprint_names_rename, Option.map_map]
    rfl

theorem typeOf_rename (f : String → String) (schemas : List SchemaRecord) (s : Shape) :
    (ofSchemas .names (schemas.map (·.rename f))).typeOf (s.rename f) =
      ((ofSchemas .names schemas).typeOf s).rename f := by
  induction s using Shape.induct with
  | string values format => cases values <;> rfl
  | array item ih => rw [Shape.rename, typeOf, typeOf, ih, TypeExpr.rename]
  | object o _ hextra =>
    -- The object folds before anything within it is looked at; only extra keys can be reached.
    have hl := lookup_rename f schemas o
    obtain ⟨properties, required, additional⟩ := o
    rw [ObjectShape.rename] at hl
    rw [Shape.rename, ObjectShape.rename, typeOf, typeOf, typeOfObject, typeOfObject, hl]
    cases (ofSchemas .names schemas).lookup ⟨properties, required, additional⟩ with
    | some name => rfl
    | none =>
      cases additional with
      | none => rfl
      | some value => exact congrArg TypeExpr.map (hextra value rfl)
  | _ => rfl

theorem declare_rename (f : String → String) (schemas : List SchemaRecord) (s : SchemaRecord) :
    (ofSchemas .names (schemas.map (·.rename f))).declare (s.rename f) =
      ((ofSchemas .names schemas).declare s).rename f := by
  have htype := typeOf_rename f schemas
  generalize ofSchemas .names (schemas.map (·.rename f)) = renamed at htype ⊢
  obtain ⟨name, declaredName, description, shape⟩ := s
  cases shape with
  | string values format => cases values <;> rfl
  | object o =>
    have hobject := htype (.object o)
    rw [Shape.rename, ObjectShape.rename_eq] at hobject
    simp only [declare, SchemaRecord.rename, Shape.rename, ObjectShape.rename_eq, List.isEmpty_map]
    split
    · exact congrArg Declaration.synonym hobject
    · simp [Declaration.rename, Field.rename, htype, Function.comp_def]
  | _ => exact congrArg Declaration.synonym (htype _)

end TypeMap

/-- `r` takes the name of every schema to the one that the schema in the same place has afterwards. -/
def Renames (r : String → String) (before after : List SchemaRecord) : Prop :=
  after.map (·.name) = (before.map (·.name)).map r

/-- A table changes no type but for the names in it: shapes whose references are renamed get the renamed
types, and renamed schemas the renamed declarations, with objects folding onto the same schemas. -/
theorem MappingTable.types_commute (hc : Api.Closed ops schemas)
    (h : t.apply ops schemas = .ok (ops', schemas')) :
    (∃ r, Renames r schemas schemas') ∧ ∀ r, Renames r schemas schemas' →
      (∀ s : Shape, s.Within (schemas.map (·.name)) →
        (TypeMap.ofSchemas .names schemas').typeOf (s.rename r) =
          ((TypeMap.ofSchemas .names schemas).typeOf s).rename r) ∧
      schemas'.map (TypeMap.ofSchemas .names schemas').declare =
        schemas.map fun s => ((TypeMap.ofSchemas .names schemas).declare s).rename r := by
  obtain ⟨made, ids, -, -, -, rfl⟩ := MappingTable.apply_eq_ok.mp h
  refine ⟨⟨made.apply, names_map_rename made.apply schemas⟩, fun r hr => ?_⟩
  have agree : ∀ a ∈ schemas.map (·.name), r a = made.apply a :=
    List.map_inj_left.mp (hr.symm.trans (names_map_rename made.apply schemas))
  refine ⟨fun s hs => ?_, ?_⟩
  · have htypes : ∀ a, ((TypeMap.ofSchemas .names schemas).typeOf s).Mentions a → r a = made.apply a :=
      fun a ha => agree a (TypeMap.mem_of_mentions_typeOf TypeMap.within_ofSchemas hs ha)
    rw [s.rename_congr fun a ha => agree a (hs a ha), TypeExpr.rename_congr htypes]
    exact TypeMap.typeOf_rename made.apply schemas s
  · rw [List.map_map]
    refine List.map_congr_left fun s hs => ?_
    have htypes : ∀ a, ((TypeMap.ofSchemas .names schemas).declare s).Mentions a → r a = made.apply a :=
      fun a ha => agree a (TypeMap.mem_of_mentions_declare TypeMap.within_ofSchemas (hc.schemas s hs) ha)
    rw [Declaration.rename_congr htypes]
    exact TypeMap.declare_rename made.apply schemas s

/-- An inline object that folds onto `B` folds onto `A` once the two have swapped their names. -/
theorem MappingTable.types_commute_swap :
    (TypeMap.ofSchemas .names (twins "B" "A")).typeOf
        (.array (.object ⟨[("twin", .reference "B")], [], none⟩)) = .array (.named "A") := by
  have hr : Renames (fun a => if a = "A" then "B" else "A") (twins "A" "B") (twins "B" "A") := rfl
  have hs : Shape.Within ["A", "B"] (.array (.object ⟨[("twin", .reference "A")], [], none⟩)) := by
    simp [Shape.Within, Shape.references, ObjectShape.mem_references]
  have folds : (TypeMap.ofSchemas .names (twins "A" "B")).typeOf
      (.object ⟨[("twin", .reference "A")], [], none⟩) = .named "B" :=
    TypeMap.typeOf_object_eq_named_iff.mpr <| TypeMap.lookup_eq_some_iff.mpr
      ⟨_, [_], _, [], rfl, rfl, rfl, rfl, by simp [Api.SchemaRecord.fingerprint]⟩
  have happly : swap.apply [getter "A"] (twins "A" "B") = .ok ([getter "B"], twins "B" "A") := rfl
  have htype := ((MappingTable.types_commute closed_twins happly).2 _ hr).1 _ hs
  rw [TypeMap.typeOf, folds] at htype
  exact htype

end ClientGen
