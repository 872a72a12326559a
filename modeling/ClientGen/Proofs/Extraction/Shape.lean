import ClientGen.Shape.OfSchema
import ClientGen.Proofs.Document.Schema
import ClientGen.Proofs.Shape
import ClientGen.Proofs.Shape.WellFormed

/-! How the shape of a schema comes about, and what is kept on the way: where the references of a schema
lead to entries of the table, so do those of its shape. -/
namespace ClientGen
variable {names : List String} {table : SchemaTable} {shape? : Schema → Option Shape} {b : SchemaBody}
  {o o' : ObjectShape} {s : Schema} {shape : Shape}

/-- All references of the shape are among the names. -/
def Shape.Within (names : List String) (s : Shape) : Prop := ∀ a ∈ s.references, a ∈ names

def ObjectShape.Within (names : List String) (o : ObjectShape) : Prop := ∀ a ∈ o.references, a ∈ names

theorem Shape.within_of_nil {shape : Shape} (h : shape.references = []) : shape.Within names := by
  rw [Shape.Within, h]
  exact fun _ h => nomatch h

theorem ObjectShape.within_iff : o.Within names ↔
    (∀ p ∈ o.properties, p.2.Within names) ∧ ∀ s ∈ o.additional, s.Within names := by
  simp only [Within, Shape.Within, ObjectShape.mem_references]
  constructor
  · exact fun h => ⟨fun p hp a ha => h a (.inl ⟨p, hp, ha⟩), fun s hs a ha => h a (.inr ⟨s, hs, ha⟩)⟩
  · rintro ⟨hp, he⟩ a (⟨p, hmem, ha⟩ | ⟨s, hmem, ha⟩)
    · exact hp p hmem a ha
    · exact he s hmem a ha

theorem ObjectShape.within_empty : ObjectShape.empty.Within names := fun _ h => nomatch h

theorem ObjectShape.within_dropUndeclared : o.dropUndeclared.Within names ↔ o.Within names := by
  rw [within_iff, within_iff, dropUndeclared]

namespace SchemaBody

/-- The second step of the merge: the first declaration of additional properties stays. -/
def mergeAdditional? (shape? : Schema → Option Shape) (b : SchemaBody) (o : ObjectShape) :
    Option (Option Shape) :=
  match o.additional, b.additional with
  | some a, _ => some (some a)
  | none, .flag true => some (some .unknown)
  | none, .schema s => (shape? s).map some
  | none, _ => some none

theorem mergeOwn?_eq_some : b.mergeOwn? shape? o = some o' ↔
    b.properties.foldlM (fun ps member => (shape? member.2).map (Entries.put ps member.1))
      o.properties = some o'.properties ∧ b.mergeAdditional? shape? o = some o'.additional ∧
      b.required.foldl addNew o.required = o'.required := by
  have hm : b.mergeOwn? shape? o = (b.properties.foldlM
      (fun ps member => (shape? member.2).map (Entries.put ps member.1)) o.properties).bind fun properties =>
        (b.mergeAdditional? shape? o).bind fun additional =>
          some ⟨properties, b.required.foldl addNew o.required, additional⟩ := by
    rw [mergeOwn?, Option.bind_eq_bind, mergeAdditional?]
    refine congrArg _ (funext fun properties => ?_)
    cases o.additional with
    | some a => rfl
    | none =>
      cases b.additional with
      | absent => rfl
      | flag allowed => cases allowed <;> rfl
      | schema s => rfl
  rw [hm, Option.bind_eq_some_iff]
  constructor
  · rintro ⟨properties, hp, h⟩
    obtain ⟨additional, ha, ho'⟩ := Option.bind_eq_some_iff.mp h
    cases ho'
    exact ⟨hp, ha, rfl⟩
  · obtain ⟨properties, required, additional⟩ := o'
    rintro ⟨hp, ha, rfl⟩
    exact ⟨_, hp, Option.bind_eq_some_iff.mpr ⟨_, ha, rfl⟩⟩

/-- What a schema declares itself brings in nothing but the shapes of the schemas within, or `unknown`. -/
theorem mem_mergeOwn? (h : b.mergeOwn? shape? o = some o') :
    (∀ p ∈ o'.properties, p ∈ o.properties ∨ ∃ s ∈ b.children, shape? s = some p.2) ∧
      ∀ extra ∈ o'.additional, extra ∈ o.additional ∨ extra = .unknown ∨
        ∃ s ∈ b.children, shape? s = some extra := by
  obtain ⟨hp, ha, -⟩ := mergeOwn?_eq_some.mp h
  constructor
  · refine foldlM_eq_some (P := fun ps => ∀ p ∈ ps, p ∈ o.properties ∨ ∃ s ∈ b.children, shape? s = some p.2)
      (fun ps member ps' hmem hps hstep => ?_) (fun p hold => .inl hold) hp
    obtain ⟨shape, hshape, rfl⟩ := Option.map_eq_some_iff.mp hstep
    intro p hput
    rcases Entries.mem_put hput with rfl | hput
    · exact .inr ⟨_, mem_children_of_property hmem, hshape⟩
    · exact hps p hput
  · intro extra hmem
    rw [Option.mem_def] at hmem
    rw [mergeAdditional?, hmem] at ha
    split at ha
    · rename_i hold
      cases ha
      exact .inl hold
    · cases ha
      exact .inr (.inl rfl)
    · rename_i s _ hb
      obtain ⟨shape, hshape, he⟩ := Option.map_eq_some_iff.mp ha
      cases he
      exact .inr (.inr ⟨s, mem_children.mpr (by simp [hb, Additional.schema?]), hshape⟩)
    · cases ha

theorem within_mergeOwn? (hs : ∀ s ∈ b.children, ∀ shape, shape? s = some shape → shape.Within names)
    (ho : o.Within names) (h : b.mergeOwn? shape? o = some o') : o'.Within names := by
  obtain ⟨hprops, hextra⟩ := ObjectShape.within_iff.mp ho
  obtain ⟨hproperties, hadditional⟩ := mem_mergeOwn? h
  refine ObjectShape.within_iff.mpr ⟨fun p hp => ?_, fun extra hmem => ?_⟩
  · rcases hproperties p hp with hold | ⟨s, hchild, hshape⟩
    · exact hprops p hold
    · exact hs s hchild _ hshape
  · rcases hadditional extra hmem with hold | rfl | ⟨s, hchild, hshape⟩
    · exact hextra extra hold
    · exact Shape.within_of_nil rfl
    · exact hs s hchild extra hshape

/-- A way to find the shape of a schema: it is known from the start, or that of an object or of an array. -/
inductive Look (b : SchemaBody) (look : (Schema → Option Shape) → Option Shape) : Prop
  | known (shape : Shape) (h : shape.references = []) (hlook : ∀ shape?, look shape? = some shape)
  | object (hlook : ∀ shape?, look shape? = (b.objectShape? shape?).map .object)
  | items (hlook : ∀ shape?, look shape? = (b.itemsShape? shape?).map .array)

/-- A schema with neither parts nor variants is an object or an array, or its shape is known from the start. -/
theorem plainShape?_cases (b : SchemaBody) :
    (∃ shape : Shape, shape.Plain ∧ ∀ shape?, b.plainShape? shape? = some shape) ∨
      (∀ shape?, b.plainShape? shape? = (b.objectShape? shape?).map .object) ∨
      ∀ shape?, b.plainShape? shape? = (b.itemsShape? shape?).map .array := by
  simp only [plainShape?]
  split
  · exact .inl ⟨_, Shape.plain_string _ _, fun _ => rfl⟩
  · split
    · exact .inl ⟨_, Shape.plain_string _ _, fun _ => rfl⟩
    · cases b.type with
      | none =>
        dsimp only
        cases b.properties.isEmpty <;> cases b.additional <;> cases b.items.isSome
        all_goals first
          | exact .inr (.inl fun _ => rfl)
          | exact .inr (.inr fun _ => rfl)
          | exact .inl ⟨_, Shape.plain_unknown, fun _ => rfl⟩
      | some types =>
        simp only
        rcases types.nonNull with _ | ⟨_ | _ | _ | _ | _ | _ | _⟩
        all_goals first
          | exact .inr (.inl fun _ => rfl)
          | exact .inr (.inr fun _ => rfl)
          | exact .inl ⟨_, ⟨fun _ h => (by cases h), rfl⟩, fun _ => rfl⟩

theorem look_plainShape? (b : SchemaBody) : b.Look fun shape? => b.plainShape? shape? := by
  rcases b.plainShape?_cases with ⟨shape, hplain, hlook⟩ | hlook | hlook
  · exact .known shape hplain.references hlook
  · exact .object hlook
  · exact .items hlook

/-- The variant that stands for the whole is one of the schemas within. -/
theorem onlyVariant_mem_children (h : b.onlyVariant = some s) : s ∈ b.children := by
  have hv : s ∈ if b.oneOf.isEmpty then b.anyOf else b.oneOf := by
    rw [onlyVariant] at h
    split at h
    · rename_i hf
      cases h
      exact List.mem_of_mem_filter (hf ▸ List.mem_singleton_self s)
    · cases h
  refine mem_children.mpr ?_
  split at hv
  · exact .inr (.inr (.inr (.inr (.inl hv))))
  · exact .inr (.inr (.inr (.inl hv)))

/-- Whether the shape is that of the merged parts: there are parts, and not just one that stands for the
whole. -/
def Merges (b : SchemaBody) : Prop :=
  b.allOf ≠ [] ∧ ¬(b.allOf.length = 1 ∧ b.properties = [] ∧ b.required = [])

end SchemaBody

theorem Schema.shape?_of_merges (hb : b.Merges) (n : Nat) : (inline b).shape? table (n + 1) =
    (SchemaBody.merge? table n [] b .empty).map (.object ·.dropUndeclared) := by
  obtain ⟨hne, hmany⟩ := hb
  rw [Schema.shape?]
  split
  · rename_i hall
    exact absurd hall hne
  · rename_i only hall
    have hown : ¬(b.properties.isEmpty && b.required.isEmpty) := fun h => hmany (by simpa [hall] using h)
    rw [if_neg hown]
  · rfl

/-- A schema in place is looked at by itself, stands for one of the schemas within or for nothing, or is
merged. -/
theorem Schema.shape?_cases (table : SchemaTable) (b : SchemaBody) :
    (∀ n, (inline b).shape? table (n + 1) = b.plainShape? (Schema.shape? table n)) ∨
      (∀ n, (inline b).shape? table (n + 1) = some .unknown) ∨
      (∃ s ∈ b.children, ∀ n, (inline b).shape? table (n + 1) = s.shape? table n) ∨
      b.Merges ∧ ∀ n, (inline b).shape? table (n + 1) =
        (SchemaBody.merge? table n [] b .empty).map (.object ·.dropUndeclared) := by
  by_cases hb : b.Merges
  · exact .inr (.inr (.inr ⟨hb, Schema.shape?_of_merges hb⟩))
  · cases hall : b.allOf with
    | nil =>
      by_cases hv : b.oneOf.isEmpty && b.anyOf.isEmpty
      · exact .inl fun n => by simp only [Schema.shape?, hall, hv, if_true]
      · cases ho : b.onlyVariant with
        | none => exact .inr (.inl fun n => by simp [Schema.shape?, hall, hv, ho])
        | some s =>
          have hs := SchemaBody.onlyVariant_mem_children ho
          exact .inr (.inr (.inl ⟨s, hs, fun n => by simp [Schema.shape?, hall, hv, ho]⟩))
    | cons only rest =>
      obtain ⟨hlength, hp, hr⟩ : b.allOf.length = 1 ∧ b.properties = [] ∧ b.required = [] := by
        simpa [SchemaBody.Merges, hall] using hb
      obtain rfl : rest = [] := by simpa [hall] using hlength
      have hs : only ∈ b.children := SchemaBody.mem_children_of_part (by simp [hall])
      exact .inr (.inr (.inl ⟨only, hs, fun n => by simp [Schema.shape?, hall, hp, hr]⟩))

/-- A schema in place is looked at by itself, stands for one of the schemas within, or is merged. -/
theorem Schema.shape?_inline (table : SchemaTable) (b : SchemaBody) :
    (∃ look, b.Look look ∧ ∀ n, (inline b).shape? table (n + 1) = look (Schema.shape? table n)) ∨
      (∃ s ∈ b.children, ∀ n, (inline b).shape? table (n + 1) = s.shape? table n) ∨
      b.Merges ∧ ∀ n, (inline b).shape? table (n + 1) =
        (SchemaBody.merge? table n [] b .empty).map (.object ·.dropUndeclared) := by
  rcases shape?_cases table b with he | he | hchild | hmerge
  · exact .inl ⟨_, b.look_plainShape?, he⟩
  · exact .inl ⟨_, .known .unknown rfl fun _ => rfl, he⟩
  · exact .inr (.inl hchild)
  · exact .inr (.inr hmerge)

theorem Schema.Known.within (h : (Schema.inline b).Known table) (hs : s ∈ b.children) :
    s.Known table :=
  fun path hm => h path (.inline hs hm)

theorem SchemaTable.mem_of_body? {name : String} (h : table.body? name = some b) :
    (name, .inline b) ∈ table := by
  rw [body?] at h
  split at h
  · rename_i hg
    cases h
    exact Entries.mem_of_get? hg
  · cases h

theorem known_of_body? (ht : ∀ e ∈ table, e.2.Known table) {name : String}
    (h : table.body? name = some b) : (Schema.inline b).Known table :=
  ht _ (SchemaTable.mem_of_body? h)

/-- What every part keeps that is merged, here or as an entry of the table, the parts together keep. -/
theorem SchemaBody.merge?_keeps {P : ObjectShape → Prop} {n : Nat} {path : List String}
    (inline : ∀ c, .inline c ∈ b.allOf → ∀ o o', P o → merge? table n path c o = some o' → P o')
    (entry : ∀ name c, table.body? name = some c → ∀ o o', P o →
      merge? table n (name :: path) c o = some o' → P o')
    (ho : P o) (hm : merge? table (n + 1) path b o = some o') :
    ∃ merged, P merged ∧ b.mergeOwn? (Schema.shape? table n) merged = some o' := by
  rw [merge?, Option.bind_eq_bind, Option.bind_eq_some_iff] at hm
  obtain ⟨merged, hparts, hown⟩ := hm
  refine ⟨merged, foldlM_eq_some (fun o part o' hpart ho hstep => ?_) ho hparts, hown⟩
  -- A part is merged here, passed over, or looked up in the table.
  cases part with
  | inline c => exact inline c hpart o o' ho hstep
  | ref ref =>
    dsimp only at hstep
    split at hstep
    · cases hstep
      exact ho
    · split at hstep
      · cases hstep
        exact ho
      · split at hstep
        · cases hstep
          exact ho
        · rename_i c hc
          exact entry _ c hc o o' ho hstep

/-- What is kept on the way from schemas to shapes: `Q` of the schemas, `P` of the shapes, and `D` of objects
that are not finished. -/
structure ShapeInvariant (table : SchemaTable) (Q : Schema → Prop) (P : Shape → Prop)
    (D : ObjectShape → Prop) : Prop where
  within {b : SchemaBody} {s : Schema} : Q (.inline b) → s ∈ b.children → Q s
  entry {name : String} {b : SchemaBody} : table.body? name = some b → Q (.inline b)
  ref {path name : String} : Q (.ref path) → Reference.schemaName? path = some name → P (.reference name)
  plain {s : Shape} : s.Plain → P s
  array {s : Shape} : P s → P (.array s)
  empty : D .empty
  /-- What a schema declares itself is put into an object. -/
  own {shape? : Schema → Option Shape} {b : SchemaBody} {o o' : ObjectShape} :
    (∀ s ∈ b.children, ∀ shape, shape? s = some shape → P shape) → D o →
    b.mergeOwn? shape? o = some o' → D o'
  finish {o : ObjectShape} : D o → P (.object o.dropUndeclared)

namespace ShapeInvariant
variable {Q : Schema → Prop} {P : Shape → Prop} {D : ObjectShape → Prop} (h : ShapeInvariant table Q P D)
include h

theorem of_plainShape? (hs : ∀ s ∈ b.children, ∀ shape, shape? s = some shape → P shape)
    (hb : b.plainShape? shape? = some shape) : P shape := by
  rcases b.plainShape?_cases with ⟨known, hplain, hlook⟩ | hlook | hlook
  · obtain rfl : known = shape := Option.some.inj ((hlook shape?).symm.trans hb)
    exact h.plain hplain
  · obtain ⟨_, ho, rfl⟩ := Option.map_eq_some_iff.mp ((hlook shape?).symm.trans hb)
    obtain ⟨merged, hm, rfl⟩ := Option.map_eq_some_iff.mp ho
    exact h.finish (h.own hs h.empty hm)
  · obtain ⟨item, hi, rfl⟩ := Option.map_eq_some_iff.mp ((hlook shape?).symm.trans hb)
    rw [SchemaBody.itemsShape?] at hi
    split at hi
    · rename_i s hitems
      exact h.array (hs s (SchemaBody.mem_children_of_items hitems) item hi)
    · cases hi
      exact h.array (h.plain Shape.plain_unknown)

/-- By induction on the steps, for shapes and merges together. -/
theorem run (n : Nat) : (∀ s shape, Q s → Schema.shape? table n s = some shape → P shape) ∧
    ∀ path b o o', Q (.inline b) → D o → SchemaBody.merge? table n path b o = some o' → D o' := by
  induction n with
  | zero => exact ⟨fun _ _ _ hs => (nomatch hs), fun _ _ _ _ _ _ hm => (nomatch hm)⟩
  | succ n ih =>
    obtain ⟨hshape, hmerge⟩ := ih
    have children {b : SchemaBody} (hb : Q (.inline b)) : ∀ s ∈ b.children, ∀ shape,
        Schema.shape? table n s = some shape → P shape :=
      fun s hs shape => hshape s shape (h.within hb hs)
    refine ⟨fun s shape hs hx => ?_, fun path b o o' hb ho hm => ?_⟩
    · cases s with
      | ref path =>
        rw [Schema.shape?] at hx
        cases hx
        cases hn : Reference.schemaName? path with
        | none => exact h.plain Shape.plain_unknown
        | some name => exact h.ref hs hn
      | inline b =>
        rcases Schema.shape?_cases table b with he | he | ⟨s, hmem, he⟩ | ⟨-, he⟩
        · exact h.of_plainShape? (children hs) ((he n).symm.trans hx)
        · obtain rfl : Shape.unknown = shape := Option.some.inj ((he n).symm.trans hx)
          exact h.plain Shape.plain_unknown
        · exact children hs s hmem shape ((he n).symm.trans hx)
        · obtain ⟨o, ho, rfl⟩ := Option.map_eq_some_iff.mp ((he n).symm.trans hx)
          exact h.finish (hmerge [] b .empty o hs h.empty ho)
    · have inline (c : SchemaBody) (hc : .inline c ∈ b.allOf) :=
        (hmerge path c · · (h.within hb (SchemaBody.mem_children_of_part hc)))
      have entry (name : String) (c : SchemaBody) (hc : table.body? name = some c) :=
        (hmerge (name :: path) c · · (h.entry hc))
      obtain ⟨merged, hmerged, hown⟩ := SchemaBody.merge?_keeps inline entry ho hm
      exact h.own (children hb) hmerged hown

theorem of_shape (hs : Q s) : P (s.shape table) := by
  rw [Schema.shape]
  cases hx : s.shape? table (table.steps s.depth) with
  | none => exact h.plain Shape.plain_unknown
  | some shape => exact (h.run _).1 s shape hs hx

end ShapeInvariant

/-- The references of known schemas lead to entries of the table, and so do those of their shapes. -/
theorem shapeInvariant_within (ht : ∀ e ∈ table, e.2.Known table) : ShapeInvariant table
    (Schema.Known table) (Shape.Within (Entries.keys table)) (ObjectShape.Within (Entries.keys table)) where
  within hb hs := hb.within hs
  entry hb := known_of_body? ht hb
  ref := by
    intro path name hk hn
    obtain ⟨name', hmem, hpath⟩ := hk path .ref
    have he : name = name' :=
      Reference.toEntry_injective ((Reference.eq_toEntry_of_schemaName? hn).symm.trans hpath)
    exact fun a ha => List.mem_singleton.mp ha ▸ he ▸ hmem
  plain hs := Shape.within_of_nil hs.references
  array hs := hs
  empty := ObjectShape.within_empty
  own := SchemaBody.within_mergeOwn?
  finish ho := ObjectShape.within_dropUndeclared.mpr ho

/-- No shape refers to anything but entries of the table. -/
theorem Schema.Known.within_shape (ht : ∀ e ∈ table, e.2.Known table) (hk : s.Known table) :
    (s.shape table).Within (Entries.keys table) := (shapeInvariant_within ht).of_shape hk

end ClientGen
