import ClientGen.Document.Resolve
import ClientGen.Proofs.Document.Reference
import ClientGen.Proofs.Entries
import ClientGen.Proofs.Outcome

/-! Schema references: the check of a schema finds each of them, however deep. -/
namespace ClientGen
variable {table : SchemaTable} {path : String}

def Additional.schema? {σ : Type} : Additional σ → Option σ
  | .schema s => some s
  | _ => none

/-- The schemas directly within. -/
def SchemaBody.children (b : SchemaBody) : List Schema :=
  b.properties.map Prod.snd ++ b.items.toList ++ b.allOf ++ b.oneOf ++ b.anyOf ++
    b.additional.schema?.toList

/-- Whether a reference is written in a schema, at any depth. -/
inductive Schema.Mentions (path : String) : Schema → Prop
  | ref : Mentions path (.ref path)
  | inline {b s} : s ∈ b.children → Mentions path s → Mentions path (.inline b)

/-- A path that leads to an entry of the table. -/
def NamesSchema (table : SchemaTable) (path : String) : Prop :=
  ∃ name ∈ Entries.keys table, path = Reference.toEntry "schemas" name

/-- All references of the schema lead to entries of the table. -/
def Schema.Known (table : SchemaTable) (s : Schema) : Prop :=
  ∀ path, s.Mentions path → NamesSchema table path

theorem SchemaBody.mem_children {b : SchemaBody} {s : Schema} :
    s ∈ b.children ↔ s ∈ b.properties.map Prod.snd ∨ s ∈ b.items ∨ s ∈ b.allOf ∨ s ∈ b.oneOf ∨
      s ∈ b.anyOf ∨ s ∈ b.additional.schema? := by
  simp only [children, List.mem_append, Option.mem_toList, or_assoc, Option.mem_def]

theorem SchemaBody.mem_children_of_property {b : SchemaBody} {p : String × Schema} (h : p ∈ b.properties) :
    p.2 ∈ b.children := mem_children.mpr (.inl (List.mem_map_of_mem h))

theorem SchemaBody.mem_children_of_items {b : SchemaBody} {s : Schema} (h : b.items = some s) :
    s ∈ b.children := mem_children.mpr (.inr (.inl h))

theorem SchemaBody.mem_children_of_part {b : SchemaBody} {s : Schema} (h : s ∈ b.allOf) : s ∈ b.children :=
  mem_children.mpr (.inr (.inr (.inl h)))

/-- What holds of a schema when it holds of the schemas directly within holds of every schema. -/
@[elab_as_elim]
theorem Schema.induct {P : Schema → Prop} (ref : ∀ path, P (.ref path))
    (inline : ∀ b : SchemaBody, (∀ s ∈ b.children, P s) → P (.inline b)) (s : Schema) : P s :=
  @Schema.rec P (fun b => ∀ s ∈ b.children, P s) (fun ps => ∀ s ∈ ps.map Prod.snd, P s)
    (fun extra => ∀ s ∈ extra.schema?, P s) (fun items => ∀ s ∈ items, P s)
    (fun parts => ∀ s ∈ parts, P s) (fun p => P p.2) ref inline
    (fun _ _ _ _ _ _ _ _ _ _ _ _ hp he hi ha ho hany s hs => by
      rcases SchemaBody.mem_children.mp hs with h | h | h | h | h | h
      · exact hp s h
      · exact hi s h
      · exact ha s h
      · exact ho s h
      · exact hany s h
      · exact he s h)
    (by simp) (fun _ _ h ih => List.forall_mem_cons.mpr ⟨h, ih⟩) (by simp [Additional.schema?])
    (by simp [Additional.schema?]) (by simp [Additional.schema?]) (by simp) (by simp) (by simp)
    (fun _ _ h ih => List.forall_mem_cons.mpr ⟨h, ih⟩) (fun _ _ h => h) s

theorem checkMembers_eq_ok {ps : List (String × Schema)} :
    checkMembers table ps = .ok () ↔ ∀ s ∈ ps.map Prod.snd, s.check table = .ok () := by
  induction ps with
  | nil => simp [checkMembers]
  | cons p ps ih => rw [checkMembers, andThen_eq_ok, ih, List.map_cons, List.forall_mem_cons]

theorem checkParts_eq_ok {parts : List Schema} :
    checkParts table parts = .ok () ↔ ∀ s ∈ parts, s.check table = .ok () := by
  induction parts with
  | nil => simp [checkParts]
  | cons s parts ih => rw [checkParts, andThen_eq_ok, ih, List.forall_mem_cons]

theorem checkItems_eq_ok {items : Option Schema} :
    checkItems table items = .ok () ↔ ∀ s ∈ items, s.check table = .ok () := by
  cases items <;> simp [checkItems]

theorem checkAdditional_eq_ok {extra : Additional Schema} :
    checkAdditional table extra = .ok () ↔ ∀ s ∈ extra.schema?, s.check table = .ok () := by
  cases extra <;> simp [checkAdditional, Additional.schema?]

/-- The six keywords under which schemas are nested are all looked at. -/
theorem SchemaBody.check_eq_ok {b : SchemaBody} :
    b.check table = .ok () ↔ ∀ s ∈ b.children, s.check table = .ok () := by
  cases b
  simp only [SchemaBody.check, andThen_eq_ok, checkMembers_eq_ok, checkItems_eq_ok, checkParts_eq_ok,
    checkAdditional_eq_ok, mem_children, or_imp, forall_and]

theorem checkReference_eq_ok : table.checkReference path = .ok () ↔ NamesSchema table path := by
  rw [SchemaTable.checkReference, bind_eq_ok]
  constructor
  · rintro ⟨name, ht, h⟩
    by_cases hn : Entries.has table name
    · exact ⟨name, Entries.has_eq_true_iff.mp hn, Reference.eq_toEntry_of_target ht⟩
    · simp [hn] at h
  · rintro ⟨name, hn, rfl⟩
    refine ⟨name, Reference.target_toEntry (by decide) name, ?_⟩
    rw [if_pos (Entries.has_eq_true_iff.mpr hn)]
    rfl

/-- The check succeeds exactly where all references lead to schemas. -/
theorem Schema.check_eq_ok {s : Schema} :
    s.check table = .ok () ↔ s.Known table := by
  induction s using Schema.induct with
  | ref path =>
    rw [Schema.check, checkReference_eq_ok]
    constructor
    · rintro h _ ⟨⟩
      exact h
    · exact fun h => h path .ref
  | inline b ih =>
    rw [Schema.check, SchemaBody.check_eq_ok]
    constructor
    · rintro h path (_ | ⟨hs, hm⟩)
      exact (ih _ hs).mp (h _ hs) path hm
    · exact fun h s hs => (ih s hs).mpr fun path hm => h path (.inline hs hm)

end ClientGen
