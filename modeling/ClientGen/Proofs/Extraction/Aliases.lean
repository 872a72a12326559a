import ClientGen.Proofs.Extraction.Api
import ClientGen.Proofs.Extraction.Chain

/-! What `allOf` denotes in a document whose references lead somewhere, and what of it is merged: all of it,
but for what lies behind an entry that is a reference itself, or that has no name. -/
namespace ClientGen
/-- Whether a schema is written in a document: as an entry, or in an object of its paths, at any depth. -/
inductive Document.Holds (d : Document) : Schema → Prop
  | entry {e} : e ∈ d.sections.schemas → Holds d e.2
  | shared {e p s} : e ∈ d.paths → .inline p ∈ e.2.parameters → s ∈ p.schemas → Holds d s
  | parameter {e m op p s} : e ∈ d.paths → e.2.operation m = some op → .inline p ∈ op.parameters →
    s ∈ p.schemas → Holds d s
  | body {e m op body s} : e ∈ d.paths → e.2.operation m = some op →
    op.requestBody = some (.inline body) → s ∈ body.schemas → Holds d s
  | response {e m op status response s} : e ∈ d.paths → e.2.operation m = some op →
    (status, .inline response) ∈ op.responses → s ∈ response.schemas → Holds d s
  | within {b s} : Holds d (.inline b) → s ∈ b.children → Holds d s

variable {table : SchemaTable} {b c : SchemaBody} {part s : Schema} {name : String} {d r : Document}

/-- All that is written in a document has been looked at when its references are checked. -/
theorem Document.Holds.known (hd : d.Resolvable) (h : d.Holds s) : s.Known d.sections.schemas := by
  induction h with
  | entry he => exact hd.schemas _ he
  | shared he hp hs => exact ((hd.paths _ he).parameters _ hp).known _ hs
  | parameter he ho hp hs => exact (((hd.paths _ he).operations _ _ ho).parameters _ hp).known _ hs
  | body he ho hb hs => exact (((hd.paths _ he).operations _ _ ho).requestBody _ hb).known _ hs
  | response he ho hr hs => exact (((hd.paths _ he).operations _ _ ho).responses _ hr).known _ hs
  | within _ hs ih => exact ih.within hs

namespace SchemaTable

/-- The schema in place that a schema stands for: itself, or what the entry stands for that it refers to. -/
inductive StandsFor (table : SchemaTable) : Schema → SchemaBody → Prop
  | inline (b : SchemaBody) : StandsFor table (.inline b) b
  | entry {name : String} {s : Schema} {b : SchemaBody} : Entries.get? table name = some s →
    StandsFor table s b →
    StandsFor table (.ref (Reference.toEntry "schemas" name)) b

/-- Whether a schema is denoted by `allOf`: stood for by a part, or by a part of a schema that is denoted. -/
def Denotes (table : SchemaTable) : SchemaBody → SchemaBody → Prop :=
  Relation.ReflTransGen fun b c => ∃ part ∈ b.allOf, table.StandsFor part c

/-- Whether a part leads to an entry that no merge goes into: one that is a reference itself, or has no
name. -/
def PassesOver (table : SchemaTable) (part : Schema) : Prop :=
  ∃ name s, part = .ref (Reference.toEntry "schemas" name) ∧ Entries.get? table name = some s ∧
    (name = "" ∨ ∃ path, s = .ref path)

theorem body?_eq_some : table.body? name = some b ↔ Entries.get? table name = some (.inline b) := by
  rw [body?]
  cases Entries.get? table name with
  | none => simp
  | some s => cases s <;> simp

/-- No part is passed over where every entry has a name and is written in place. -/
theorem not_passesOver (h : ∀ e ∈ table, e.1 ≠ "" ∧ ∀ path, e.2 ≠ .ref path) : ¬table.PassesOver part := by
  rintro ⟨name, s, -, hget, hover⟩
  obtain ⟨hnamed, hplace⟩ := h _ (Entries.mem_of_get? hget)
  rcases hover with he | ⟨path, he⟩
  · exact hnamed he
  · exact hplace path he

/-- The schemas on the chain of a checked schema are checked as well. -/
theorem OnChain.known (ht : ∀ e ∈ table, e.2.Known table) (hb : (Schema.inline b).Known table)
    (h : table.OnChain b c) : (Schema.inline c).Known table := by
  induction h with
  | refl => exact hb
  | tail _ hstep ih =>
    cases hstep with
    | inline hmem => exact ih.within (SchemaBody.mem_children_of_part hmem)
    | entry _ _ hbody => exact known_of_body? ht hbody

/-- A part that stands for a schema is merged, or leads to an entry that no merge goes into. -/
theorem part_of_standsFor (hmem : part ∈ b.allOf) (hpart : ¬table.PassesOver part)
    (h : table.StandsFor part c) : table.Part b c := by
  cases h with
  | inline => exact .inline hmem
  | @entry name s _ hget hs =>
    have hnamed : name ≠ "" := fun he => hpart ⟨name, s, rfl, hget, .inl he⟩
    cases hs with
    | inline => exact .entry hmem (Reference.schemaName?_toEntry hnamed) (body?_eq_some.mpr hget)
    | entry => exact (hpart ⟨name, _, rfl, hget, .inr ⟨_, rfl⟩⟩).elim

/-- Where no part is passed over, all that is denoted is merged. -/
theorem onChain_of_denotes (hparts : ∀ c, table.OnChain b c → ∀ part ∈ c.allOf, ¬table.PassesOver part)
    (h : table.Denotes b c) : table.OnChain b c := by
  induction h with
  | refl => exact .refl
  | tail _ hstep ih =>
    obtain ⟨part, hmem, hstands⟩ := hstep
    exact ih.tail (part_of_standsFor hmem (hparts _ ih part hmem) hstands)

/-- A checked part brings the schema that it stands for into the merge, unless it is passed over. -/
theorem part_of_known (hb : (Schema.inline b).Known table) (hmem : part ∈ b.allOf) :
    table.PassesOver part ∨ ∃ c, table.StandsFor part c ∧ table.Part b c := by
  cases part with
  | inline c => exact .inr ⟨c, .inline c, .inline hmem⟩
  | ref path =>
    have hchild : Schema.ref path ∈ b.children := SchemaBody.mem_children_of_part hmem
    obtain ⟨name, hname, rfl⟩ := hb.within hchild path .ref
    obtain ⟨s, hs⟩ := Entries.exists_get?_iff.mpr hname
    by_cases hempty : name = ""
    · exact .inl ⟨name, s, rfl, hs, .inl hempty⟩
    · cases s with
      | ref path => exact .inl ⟨name, _, rfl, hs, .inr ⟨path, rfl⟩⟩
      | inline c =>
        have hpart := Part.entry hmem (Reference.schemaName?_toEntry hempty) (body?_eq_some.mpr hs)
        exact .inr ⟨c, .entry hs (.inline c), hpart⟩

/-- What a merged object has of the schemas that `allOf` denotes. -/
structure Keeps (table : SchemaTable) (b : SchemaBody) (o : ObjectShape) : Prop where
  /-- The properties are those of the schemas on the chain. -/
  names : ∀ name, name ∈ Entries.keys o.properties ↔
    ∃ c, table.OnChain b c ∧ name ∈ Entries.keys c.properties
  /-- A part that is not passed over brings the schema that it stands for onto the chain. -/
  parts : ∀ c, table.OnChain b c → ∀ part ∈ c.allOf,
    table.PassesOver part ∨ ∃ e, table.StandsFor part e ∧ table.OnChain b e
  /-- If none is passed over, no property is lost of any schema that is denoted. -/
  all : (∀ c, table.OnChain b c → ∀ part ∈ c.allOf, ¬table.PassesOver part) →
    ∀ c, table.Denotes b c → ∀ name ∈ Entries.keys c.properties, name ∈ Entries.keys o.properties

end SchemaTable

/-- In a document whose references lead somewhere, a merged object has the properties of all schemas that
`allOf` denotes, unless a part leads to an entry that is a reference itself, or that has no name. -/
theorem Document.allOf_keeps (hd : d.resolve = .ok r) (hs : r.Holds (.inline b)) (hb : b.Merges)
    (hends : ∃ n, ((Schema.inline b).shape? r.sections.schemas n).isSome) :
    ∃ o, (Schema.inline b).shape r.sections.schemas = .object o ∧
      SchemaTable.Keeps r.sections.schemas b o := by
  have hresolvable : r.Resolvable := exists_resolve.mp ⟨r, resolve_again hd⟩
  have hknown := hs.known hresolvable
  obtain ⟨o, hshape, hflat⟩ := Schema.allOf_flattens hb hends
  refine ⟨o, hshape, fun name => hflat.mem_keys_iff, fun c hc part hmem => ?_,
    fun hparts c hc name hname => ?_⟩
  · have hcknown := hc.known hresolvable.schemas hknown
    rcases SchemaTable.part_of_known hcknown hmem with hover | ⟨e, hstands, hpart⟩
    · exact .inl hover
    · exact .inr ⟨e, hstands, hc.tail hpart⟩
  · exact hflat.mem_keys_iff.mpr ⟨c, SchemaTable.onChain_of_denotes hparts hc, hname⟩

/-- The properties of a pet: its own, those of a part in place, and those of `Named`. -/
def pet : SchemaBody :=
  { SchemaBody.empty with
    allOf := [.ref "#/components/schemas/Named",
      .inline { SchemaBody.empty with properties := [("tag", .inline .empty)] }]
    properties := [("id", .inline .empty)] }

def petBase : SchemaBody := { SchemaBody.empty with properties := [("name", .inline .empty)] }

/-- A document of three schemas and no paths. -/
def petDocument (named : Schema) : Document where
  openapi := "3.1.0"
  info := ⟨"Pets", none, "1"⟩
  servers := []
  paths := []
  components := some {
    schemas := [("Base", .inline petBase), ("Named", named), ("Pet", .inline pet)]
    responses := []
    parameters := []
    requestBodies := [] }

theorem petDocument_holds (named : Schema) : (petDocument named).Holds (.inline pet) := by
  have hentry : ("Pet", Schema.inline pet) ∈ (petDocument named).sections.schemas := by
    simp [petDocument, Document.sections]
  exact .entry hentry

theorem pet_merges : pet.Merges := ⟨List.cons_ne_nil _ _, fun h => absurd h.1 (by decide)⟩

/-- `Named` has a part itself, whose properties are reached over it. -/
theorem Document.allOf_keeps_pet :
    let d := petDocument (.inline { SchemaBody.empty with allOf := [.ref "#/components/schemas/Base"] })
    d.resolve = .ok d ∧ ∃ o, (Schema.inline pet).shape d.sections.schemas = .object o ∧
      (∀ c, SchemaTable.Denotes d.sections.schemas pet c → ∀ name ∈ Entries.keys c.properties,
        name ∈ Entries.keys o.properties) ∧ Entries.keys o.properties = ["name", "tag", "id"] := by
  intro d
  have hd : d.resolve = .ok d := rfl
  have hshape : (Schema.inline pet).shape d.sections.schemas =
      .object ⟨[("name", .unknown), ("tag", .unknown), ("id", .unknown)], [], none⟩ := rfl
  obtain ⟨o, ho, hkeeps⟩ := Document.allOf_keeps hd (petDocument_holds _) pet_merges ⟨8, rfl⟩
  obtain rfl := Shape.object.inj (hshape.symm.trans ho)
  have hplace : ∀ e ∈ d.sections.schemas, e.1 ≠ "" ∧ ∀ path, e.2 ≠ .ref path := by
    simp [d, petDocument, Document.sections]
  exact ⟨hd, _, ho, hkeeps.all fun _ _ _ _ => SchemaTable.not_passesOver hplace, rfl⟩

/-- Where `Named` is a reference to `Base`, the properties of `Base` are lost. -/
theorem Document.allOf_loses_alias :
    let d := petDocument (.ref "#/components/schemas/Base")
    d.resolve = .ok d ∧ d.Holds (.inline pet) ∧ pet.Merges ∧
      (∃ n, ((Schema.inline pet).shape? d.sections.schemas n).isSome) ∧
      SchemaTable.Denotes d.sections.schemas pet petBase ∧ "name" ∈ Entries.keys petBase.properties ∧
      ∃ o, (Schema.inline pet).shape d.sections.schemas = .object o ∧
        "name" ∉ Entries.keys o.properties := by
  intro d
  have hshape : (Schema.inline pet).shape d.sections.schemas =
      .object ⟨[("tag", .unknown), ("id", .unknown)], [], none⟩ := rfl
  have hbase : SchemaTable.StandsFor d.sections.schemas
      (.ref (Reference.toEntry "schemas" "Base")) petBase := .entry rfl (.inline petBase)
  have hnamed : SchemaTable.StandsFor d.sections.schemas
      (.ref (Reference.toEntry "schemas" "Named")) petBase := .entry rfl hbase
  have hdenotes : SchemaTable.Denotes d.sections.schemas pet petBase :=
    .single ⟨_, List.mem_cons_self, hnamed⟩
  exact ⟨rfl, petDocument_holds _, pet_merges, ⟨8, rfl⟩, hdenotes, by decide, _, hshape, by decide⟩

end ClientGen
