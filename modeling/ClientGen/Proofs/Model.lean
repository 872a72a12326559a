import ClientGen.View
import ClientGen.Proofs.Renaming.Isomorphism
import ClientGen.Proofs.Types

/-! What is prepared for rendering: every group holds operations of the model, and every type that an
operation or a schema is given mentions schemas of the model only. -/
namespace ClientGen
open Api (Operation SchemaRecord)
variable {api : Api} {t : MappingTable} {mode : FingerprintMode} {m : Model} {op : Operation}
  {ops : List Operation} {groups groups' : Groups} {service a : String}

/-- What is prepared: the outcome of the table, its groups, and types made of its schemas. -/
theorem Api.prepare_eq_ready (h : api.prepare (some t) mode = .ok (.ready m)) :
    ∃ groups, t.apply api.operations api.schemas = .ok (m.operations, m.schemas) ∧
      Groups.ofOperations t m.operations = .ok groups ∧
      m = { m with groups, types := .ofSchemas mode m.schemas } := by
  obtain ⟨m', hm, he⟩ := exceptMap_eq_ok.mp h
  cases he
  simp only [Api.model, bind_eq_ok, pure_eq_ok] at hm
  obtain ⟨⟨ops, schemas⟩, ha, groups, hg, rfl⟩ := hm
  exact ⟨groups, ha, hg, rfl⟩

namespace Groups

theorem mem_add (h : groups.add service op = .ok groups')
    (hg : ∀ g ∈ groups, ∀ x ∈ g.2, x ∈ ops) (hop : op ∈ ops) : ∀ g ∈ groups', ∀ x ∈ g.2, x ∈ ops := by
  rw [add] at h
  split at h
  · cases h
  · cases h
    intro g hmem x hx
    rcases Entries.mem_put hmem with rfl | hmem
    · rcases List.mem_append.mp hx with hx | hx
      · cases hs : Entries.get? groups service with
        | none => simp [hs] at hx
        | some members => exact hg _ (Entries.mem_of_get? hs) x (by simpa [hs] using hx)
      · exact List.mem_singleton.mp hx ▸ hop
    · exact hg g hmem x hx

/-- Grouping neither makes operations up nor takes them from elsewhere. -/
theorem mem_ofOperations (h : ofOperations t ops = .ok groups) : ∀ g ∈ groups, ∀ x ∈ g.2, x ∈ ops := by
  refine foldlM_eq_ok (P := fun groups => ∀ g ∈ groups, ∀ x ∈ g.2, x ∈ ops)
    (fun groups op groups' hop hg hstep => ?_) (fun _ h => (List.not_mem_nil h).elim) h
  obtain ⟨service, _, ha⟩ := bind_eq_ok.mp hstep
  exact mem_add ha hg hop

end Groups

namespace Model

/-- What holds of a model however it is prepared. -/
structure Sound (m : Model) : Prop where
  closed : Api.Closed m.operations m.schemas
  types : m.types.Within (m.schemas.map (·.name))
  groups : ∀ g ∈ m.groups, ∀ op ∈ g.2, op ∈ m.operations

theorem sound_prepare (hc : Api.Closed api.operations api.schemas)
    (h : api.prepare (some t) mode = .ok (.ready m)) : m.Sound := by
  obtain ⟨groups, ha, hg, he⟩ := Api.prepare_eq_ready h
  refine ⟨MappingTable.closed_apply hc ha, ?_, ?_⟩
  · rw [he]
    exact TypeMap.within_ofSchemas
  · rw [he]
    exact Groups.mem_ofOperations hg

theorem flatOperations_eq_ok (h : m.flatOperations = .ok ops) : ops = m.operations := by
  rw [flatOperations] at h
  split at h
  · cases h
  · cases h
    rfl

theorem services_eq_ok (h : m.services = .ok groups) : groups = m.namedGroups := by
  rw [services] at h
  split at h
  · cases h
  · cases h
    rfl

namespace Sound
variable (h : m.Sound)
include h

theorem mem_of_rootOperations : ∀ op ∈ m.rootOperations, op ∈ m.operations := by
  intro op hop
  rw [rootOperations] at hop
  cases hg : Entries.get? m.groups defaultService with
  | none => simp [hg] at hop
  | some members => exact h.groups _ (Entries.mem_of_get? hg) op (by simpa [hg] using hop)

theorem mem_of_grouped : ∀ op ∈ m.namedGroups.flatMap (·.2) ++ m.rootOperations, op ∈ m.operations := by
  intro op hop
  rcases List.mem_append.mp hop with hop | hop
  · obtain ⟨g, hg, hop⟩ := List.mem_flatMap.mp hop
    exact h.groups g (List.mem_of_mem_filter hg) op hop
  · exact h.mem_of_rootOperations op hop

/-- The type of every shape that an operation carries mentions schemas of the model only. -/
theorem mem_of_mentions_typesOf (hop : op ∈ m.operations) {type : TypeExpr}
    (htype : type ∈ m.types.typesOf op) (ha : type.Mentions a) : a ∈ m.schemas.map (·.name) := by
  obtain ⟨s, hs, rfl⟩ := List.mem_map.mp htype
  exact TypeMap.mem_of_mentions_typeOf h.types
    (fun a ha => h.closed.operations op hop a ⟨s, hs, ha⟩) ha

theorem mem_of_mentions_declare {s : SchemaRecord} (hs : s ∈ m.schemas)
    (ha : (m.types.declare s).Mentions a) : a ∈ m.schemas.map (·.name) :=
  TypeMap.mem_of_mentions_declare h.types (h.closed.schemas s hs) ha

end Sound
end Model
end ClientGen
