import ClientGen.Proofs.Extraction.Steps

/-! What `allOf` comes to. A merged object is told by the bodies that are merged, in their order: names by
their first occurrence, shapes by their last. -/
namespace ClientGen
variable {table : SchemaTable} {b c : SchemaBody} {f : Schema → Shape} {o : ObjectShape}
  {flat : List SchemaBody}

namespace SchemaBody

/-- What a body says of additional properties, if anything. -/
def extra? (f : Schema → Shape) (b : SchemaBody) : Option Shape :=
  match b.additional with
  | .flag true => some .unknown
  | .schema s => some (f s)
  | _ => none

/-- The properties of several bodies, one after the other. -/
def membersOf (flat : List SchemaBody) : List (String × Schema) := flat.flatMap (·.properties)

/-- Bodies put over one another, where the shapes of all schemas within are known. -/
def mergeAll (f : Schema → Shape) (flat : List SchemaBody) (o : ObjectShape) : ObjectShape where
  properties := Entries.putAll o.properties ((membersOf flat).map fun p => (p.1, f p.2))
  required := (flat.flatMap (·.required)).foldl addNew o.required
  additional := o.additional.or (flat.findSome? (extra? f))

theorem mergeOwn?_known (f : Schema → Shape) (b : SchemaBody) (o : ObjectShape) :
    b.mergeOwn? (fun s => some (f s)) o = some (mergeAll f [b] o) := by
  refine mergeOwn?_eq_some.mpr ⟨?_, ?_, ?_⟩
  · have fold (ps : List (String × Schema)) (es : List (String × Shape)) :
        ps.foldlM (fun es p => (some (f p.2)).map (Entries.put es p.1)) es =
          some (Entries.putAll es (ps.map fun p => (p.1, f p.2))) := by
      induction ps generalizing es with
      | nil => rfl
      | cons p ps ih => exact ih _
    simpa [mergeAll, membersOf] using fold b.properties o.properties
  · rw [mergeAdditional?, mergeAll, List.findSome?_singleton, extra?]
    cases o.additional with
    | some a => rfl
    | none =>
      cases b.additional with
      | absent => rfl
      | flag allowed => cases allowed <;> rfl
      | schema s => rfl
  · simp [mergeAll]

theorem mergeAll_cons : mergeAll f (b :: flat) o = mergeAll f flat (mergeAll f [b] o) := by
  simp only [mergeAll, membersOf, List.flatMap_cons, List.flatMap_nil, List.append_nil, List.map_append,
    Entries.putAll_append, List.foldl_append, List.findSome?_cons, List.findSome?_nil]
  cases extra? f b <;> simp

theorem foldlM_mergeOwn?_known : flat.foldlM (fun o b => b.mergeOwn? (fun s => some (f s)) o) o =
    some (mergeAll f flat o) := by
  induction flat generalizing o with
  | nil =>
    cases o
    simp [mergeAll, membersOf, Entries.putAll]
  | cons b flat ih =>
    rw [List.foldlM_cons, mergeOwn?_known]
    exact ih.trans (congrArg some mergeAll_cons.symm)

end SchemaBody

/-- A merge that ends has put the bodies of the flattened schema over one another. -/
theorem SchemaBody.merge?_eq_mergeAll {n : Nat} {path : List String} {o' : ObjectShape}
    (h : merge? table n path b o = some o') :
    mergeAll (Schema.shape table) (table.flatten path b) o = o' := by
  rw [merge?_eq_foldlM] at h
  have known : (table.spread path b).foldlM
      (fun o e => e.2.mergeOwn? (fun s => some (s.shape table)) o) o = some o' := by
    refine foldlM_imp (fun e _ o o' hstep => ?_) h
    split at hstep
    · exact mergeOwn?_imp (fun p _ x hx => congrArg some (Schema.shape_eq_of_shape? hx))
        (fun s _ x hx => congrArg some (Schema.shape_eq_of_shape? hx)) hstep
    · cases hstep
  rw [← List.foldlM_map (f := Prod.snd) (g := fun o c => mergeOwn? (fun s => some (s.shape table)) c o),
    SchemaTable.map_spread, foldlM_mergeOwn?_known] at known
  exact Option.some.inj known

/-- The object that a list of bodies comes to. -/
structure SchemaTable.Flattens (table : SchemaTable) (flat : List SchemaBody) (o : ObjectShape) : Prop where
  /-- Names are in order of first occurrence. -/
  names : Entries.keys o.properties = (Entries.keys (SchemaBody.membersOf flat)).eraseDups
  /-- The last occurrence of a name has its shape. -/
  shapes : ∀ before name s after, SchemaBody.membersOf flat = before ++ (name, s) :: after →
    name ∉ Entries.keys after → Entries.get? o.properties name = some (s.shape table)
  required : o.required =
    (flat.flatMap (·.required)).eraseDups.filter (· ∈ Entries.keys o.properties)
  additional : o.additional = flat.findSome? (SchemaBody.extra? (Schema.shape table))

theorem SchemaBody.flattens_mergeAll :
    table.Flattens flat (mergeAll (Schema.shape table) flat .empty).dropUndeclared := by
  have properties : (mergeAll (Schema.shape table) flat .empty).dropUndeclared.properties =
      Entries.putAll [] ((membersOf flat).map fun p => (p.1, p.2.shape table)) := rfl
  have names (members : List (String × Schema)) :
      Entries.keys (members.map fun p => (p.1, p.2.shape table)) = Entries.keys members := by
    rw [Entries.keys, List.map_map]
    rfl
  refine ⟨?_, fun before name s after hsplit hlast => ?_, ?_, Option.none_or⟩
  · rw [properties, Entries.keys_putAll, names]
    exact Entries.foldl_addNew_nil _
  · rw [properties, hsplit, List.map_append, List.map_cons]
    exact Entries.get?_putAll_last (names after ▸ hlast)
  · have required : (mergeAll (Schema.shape table) flat .empty).required =
        (flat.flatMap (·.required)).eraseDups := Entries.foldl_addNew_nil _
    rw [ObjectShape.dropUndeclared, required]
    exact List.filter_congr fun name _ => by
      rw [Bool.eq_iff_iff, Entries.has_eq_true_iff, decide_eq_true_iff]

/-- Where parts are merged and any number of steps finds the shape, it is that of the flattened schema. -/
theorem Schema.allOf_flattens (hb : b.Merges) (h : ∃ n, ((inline b).shape? table n).isSome) :
    ∃ o, (inline b).shape table = .object o ∧ table.Flattens (table.flatten [] b) o := by
  obtain ⟨n, h⟩ := h
  obtain ⟨shape, hshape⟩ := Option.isSome_iff_exists.mp h
  obtain _ | n := n
  · cases hshape
  · have hmerge := hshape
    rw [shape?_of_merges hb] at hmerge
    obtain ⟨merged, hmerged, rfl⟩ := Option.map_eq_some_iff.mp hmerge
    refine ⟨merged.dropUndeclared, shape_eq_of_shape? hshape, ?_⟩
    rw [← SchemaBody.merge?_eq_mergeAll hmerged]
    exact SchemaBody.flattens_mergeAll

/-- A schema with two parts that share a third; the first of them is a part of its own, too. -/
def diamond : SchemaTable :=
  let text := Schema.inline { SchemaBody.empty with type := some (.single .string) }
  let flag := Schema.inline { SchemaBody.empty with type := some (.single .boolean) }
  [("Base", .inline { SchemaBody.empty with properties := [("id", text), ("tag", text)], required := ["id"] }),
    ("Left", .inline { SchemaBody.empty with
      allOf := [.ref "#/components/schemas/Base", .ref "#/components/schemas/Left"]
      properties := [("tag", flag)]
      additional := .schema flag }),
    ("Right", .inline { SchemaBody.empty with
      allOf := [.ref "#/components/schemas/Base"]
      required := ["tag", "missing"]
      additional := .flag true })]

def diamondTop : SchemaBody :=
  { SchemaBody.empty with
    allOf := [.ref "#/components/schemas/Left", .ref "#/components/schemas/Right"]
    properties := [("left", .ref "#/components/schemas/Left")] }

/-- The last word on `tag` has the shared part, and the first on additional properties the first part. -/
theorem Schema.allOf_flattens_diamond : diamondTop.Merges ∧ ∃ o,
    (Schema.inline diamondTop).shape diamond = .object o ∧
    diamond.Flattens (diamond.flatten [] diamondTop) o ∧
    Entries.keys o.properties = ["id", "tag", "left"] ∧ Entries.get? o.properties "tag" = some .plainString ∧
    o.required = ["id", "tag"] ∧ o.additional = some .boolean := by
  have hb : diamondTop.Merges := ⟨nofun, fun h => absurd h.1 (by decide)⟩
  have hshape : (Schema.inline diamondTop).shape diamond = .object
      ⟨[("id", .plainString), ("tag", .plainString), ("left", .reference "Left")], ["id", "tag"],
        some .boolean⟩ := rfl
  have hfound : ∃ n, ((Schema.inline diamondTop).shape? diamond n).isSome := ⟨8, rfl⟩
  obtain ⟨o, ho, hflat⟩ := Schema.allOf_flattens hb hfound
  obtain rfl := Shape.object.inj (hshape.symm.trans ho)
  exact ⟨hb, _, ho, hflat, rfl, rfl, rfl, rfl⟩

end ClientGen
