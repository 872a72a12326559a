import ClientGen.Proofs.Renaming.Chosen

/-! When a table is refused: for a chosen name that is no identifier, or for one name of two schemas of which
the table chooses at least one. Whatever it is applied to comes out under identifiers. -/
namespace ClientGen
open Api (Operation SchemaRecord)

/-! ### What is said -/

/-- The names that a message is about: those of records as they were before any renaming. -/
def MappingError.subjects : MappingError → List String
  | .emptyIdentifier subject _ => [subject]
  | .invalidIdentifier subject _ => [subject]
  | .duplicateMethod _ _ first second => [first, second]
  | .duplicateSchema _ first second => [first, second]

/-- The message shows the name, in quotation marks. -/
def MappingError.Quotes (e : MappingError) (name : String) : Prop :=
  ∃ before after, e.message = before ++ "`" ++ name ++ "`" ++ after

theorem MappingError.quotes_subjects (e : MappingError) : ∀ name ∈ e.subjects, e.Quotes name := by
  cases e with
  | emptyIdentifier subject value =>
    have hmessage : (emptyIdentifier subject value).message =
      "identifier for `" ++ subject ++ "` is empty after sanitizing `" ++ value ++ "`" := rfl
    refine List.forall_mem_singleton.mpr
      ⟨"identifier for ", " is empty after sanitizing `" ++ value ++ "`", String.toList_inj.mp ?_⟩
    simp [hmessage]
  | invalidIdentifier subject value =>
    have hmessage : (invalidIdentifier subject value).message =
      "identifier for `" ++ subject ++ "` is not valid: `" ++ value ++ "` starts with a digit" := rfl
    refine List.forall_mem_singleton.mpr
      ⟨"identifier for ", " is not valid: `" ++ value ++ "` starts with a digit", String.toList_inj.mp ?_⟩
    simp [hmessage]
  | duplicateMethod service method first second =>
    have hmessage : (duplicateMethod service method first second).message =
      "service `" ++ service ++ "` has two operations named `" ++ method ++ "` (`" ++ first ++ "` and `" ++
        second ++ "`); rename one in the mapping file" := rfl
    refine List.forall_mem_cons.mpr ⟨⟨"service `" ++ service ++ "` has two operations named `" ++ method ++ "` (",
        " and `" ++ second ++ "`); rename one in the mapping file", String.toList_inj.mp ?_⟩,
      List.forall_mem_singleton.mpr ⟨"service `" ++ service ++ "` has two operations named `" ++ method ++ "` (`" ++
        first ++ "` and ", "); rename one in the mapping file", String.toList_inj.mp ?_⟩⟩
    all_goals simp [hmessage]
  | duplicateSchema name first second =>
    have hmessage : (duplicateSchema name first second).message =
      "schemas `" ++ first ++ "` and `" ++ second ++ "` are both mapped to `" ++ name ++ "`" := rfl
    refine List.forall_mem_cons.mpr ⟨⟨"schemas ", " and `" ++ second ++ "` are both mapped to `" ++ name ++ "`",
        String.toList_inj.mp ?_⟩,
      List.forall_mem_singleton.mpr ⟨"schemas `" ++ first ++ "` and ", " are both mapped to `" ++ name ++ "`",
        String.toList_inj.mp ?_⟩⟩
    all_goals simp [hmessage]

namespace MappingTable
open Renaming (target? chosenName?)
open Api (chosenMethod? repairedIds)
variable {t : MappingTable} {ops ops' : List Operation} {schemas schemas' : List SchemaRecord}
  {e : MappingError}

/-- What a table is refused for. -/
inductive Fault (t : MappingTable) (ops : List Operation) (schemas : List SchemaRecord) : MappingError → Prop
  | schema {s : SchemaRecord} {target : String} {e : MappingError} : s ∈ schemas → target? t s = some target →
    Identifier.Refused s.declaredName target e → Fault t ops schemas e
  | operation {op : Operation} {method : String} {e : MappingError} : op ∈ ops →
    chosenMethod? t op = some method → Identifier.Refused op.extractedId method e → Fault t ops schemas e
  /-- One name is chosen for two schemas. -/
  | chosen {first second : SchemaRecord} {name : String} : [first, second].Sublist schemas →
    chosenName? t first = some name → chosenName? t second = some name →
    Fault t ops schemas (.duplicateSchema name first.declaredName second.declaredName)
  /-- A name that is chosen for one schema is what another one is repaired to. -/
  | repaired {first second : SchemaRecord} {name : String} : first ∈ schemas → second ∈ schemas →
    chosenName? t first = some name → target? t second = none →
    Identifier.repaired second.declaredName "Schema" = name →
    Fault t ops schemas (.duplicateSchema name first.declaredName second.declaredName)

/-- Names as a table leaves them. -/
structure WellNamed (t : MappingTable) (ops : List Operation) (schemas : List SchemaRecord) : Prop where
  names : ∀ s ∈ schemas, Identifier.IsWord s.name
  ids : ∀ op ∈ ops, Identifier.IsWord op.id
  distinct : (schemas.map (·.name)).Nodup
  repaired : (repairedIds t ops).Nodup

theorem apply_eq_error (h : t.apply ops schemas = .error e) : Renaming.ofTable t schemas = .error e ∨
    Api.renamedIds t ops [] = .error e := by
  rw [apply] at h
  rcases bind_eq_error.mp h with h | ⟨r, -, h⟩
  · exact .inl h
  · rcases bind_eq_error.mp h with h | ⟨ids, -, h⟩
    · exact .inr h
    · cases h

theorem fault_of_ofTable (h : Renaming.ofTable t schemas = .error e) : Fault t ops schemas e := by
  rcases bind_eq_error.mp h with h | ⟨chosen, hc, h⟩
  · obtain ⟨before, s, after, target, rfl, ht, hrefused | ⟨first, hfirst, rfl⟩⟩ := Renaming.choose_eq_error h
    · exact .schema (by simp) ht hrefused
    · obtain ⟨f, hf, hname, rfl⟩ := Renaming.mem_claims.mp hfirst
      exact .chosen (pair_sublist hf) hname (by rw [chosenName?, ht, Option.map_some])
  · obtain ⟨-, hclaimed, -, hnames⟩ := Renaming.claimed_choose hc
    obtain ⟨s, hs, hfree, first, hfirst, rfl⟩ := Renaming.repair_eq_error h
    rw [hclaimed] at hfirst
    obtain ⟨f, hf, hname, rfl⟩ := Renaming.mem_claims.mp hfirst
    have hnone : target? t s = none := by
      by_contra hsome
      exact hfree ((hnames s.name).mpr (.inr ⟨s, hs, rfl, hsome⟩))
    exact .repaired hf hs hname hnone rfl

/-- Whatever a table is refused for is there, in the records and in the table. -/
theorem fault_of_apply (h : t.apply ops schemas = .error e) : Fault t ops schemas e := by
  rcases apply_eq_error h with h | h
  · exact fault_of_ofTable h
  · obtain ⟨op, hop, method, hm, hrefused⟩ := Api.renamedIds_eq_error h
    exact .operation hop hm hrefused

/-- A table that goes through leaves nothing to refuse. -/
theorem not_fault_of_apply (hd : (schemas.map (·.name)).Nodup)
    (h : t.apply ops schemas = .ok (ops', schemas')) : ¬Fault t ops schemas e := by
  obtain ⟨r, ids, hr, hi, rfl, rfl⟩ := apply_eq_ok.mp h
  obtain ⟨chosen, hc, hrepair⟩ := Renaming.ofTable_eq_ok hr
  obtain ⟨husable, hclaimed, hnodup, hnames⟩ := Renaming.claimed_choose hc
  have hkeys : chosen.claimed.keys = schemas.filterMap (chosenName? t) := by
    rw [hclaimed, ← Renaming.keys_claims]
    rfl
  intro hfault
  cases hfault with
  | schema hs ht hrefused => exact husable _ hs _ ht hrefused.unusable
  | operation hop hm hrefused => exact Api.usable_renamedIds hi _ hop _ hm hrefused.unusable
  | chosen hpair hfirst hsecond =>
    have htwice := hpair.filterMap (chosenName? t)
    have honce := (hnodup List.nodup_nil).sublist (hkeys ▸ htwice)
    simp [hfirst, hsecond] at honce
  | repaired hf hs hname hnone hbase =>
    refine Renaming.not_claimed_of_repair hrepair hd _ hs (fun hmem => ?_) ?_
    · rcases (hnames _).mp hmem with hmem | ⟨s, hmem, hsame, hsome⟩
      · cases hmem
      · exact hsome (List.inj_on_of_nodup_map hd hmem hs hsame ▸ hnone)
    · rw [hkeys, hbase]
      exact List.mem_filterMap.mpr ⟨_, hf, hname⟩

/-- A table is refused exactly if it chooses a name that cannot be used, for a schema or an operation that is
there, or one name for two schemas, or a name that another schema is repaired to; the message names the
records concerned. Whatever it is applied to comes out under distinct identifiers, but for methods that it
chooses. -/
theorem apply_refused_iff (hd : (schemas.map (·.name)).Nodup) :
    ((∃ e, t.apply ops schemas = .error e) ↔
      (∃ s ∈ schemas, ∃ target ∈ target? t s, Identifier.Unusable target) ∨
      (∃ op ∈ ops, ∃ method ∈ chosenMethod? t op, Identifier.Unusable method) ∨
      (∃ first second, [first, second].Sublist schemas ∧
        ∃ name ∈ chosenName? t first, chosenName? t second = some name) ∨
      ∃ first ∈ schemas, ∃ second ∈ schemas, target? t second = none ∧
        chosenName? t first = some (Identifier.repaired second.declaredName "Schema")) ∧
    (∀ e, t.apply ops schemas = .error e → Fault t ops schemas e ∧ ∀ name ∈ e.subjects, e.Quotes name) ∧
    ∀ ops' schemas', t.apply ops schemas = .ok (ops', schemas') → WellNamed t ops' schemas' := by
  refine ⟨⟨?_, fun hfault => ?_⟩, fun e he => ⟨fault_of_apply he, e.quotes_subjects⟩, fun ops' schemas' h => ?_⟩
  · rintro ⟨e, he⟩
    cases fault_of_apply he with
    | schema hs ht hrefused => exact .inl ⟨_, hs, _, ht, hrefused.unusable⟩
    | operation hop hm hrefused => exact .inr (.inl ⟨_, hop, _, hm, hrefused.unusable⟩)
    | chosen hpair hfirst hsecond => exact .inr (.inr (.inl ⟨_, _, hpair, _, hfirst, hsecond⟩))
    | repaired hf hs hname hnone hbase => exact .inr (.inr (.inr ⟨_, hf, _, hs, hnone, hbase ▸ hname⟩))
  · have hsome : ∃ e, Fault t ops schemas e := by
      rcases hfault with ⟨s, hs, target, ht, hu⟩ | ⟨op, hop, method, hm, hu⟩ |
        ⟨first, second, hpair, name, hfirst, hsecond⟩ | ⟨first, hf, second, hs, hnone, hname⟩
      · obtain ⟨e, he⟩ := hu.refused s.declaredName
        exact ⟨e, .schema hs ht he⟩
      · obtain ⟨e, he⟩ := hu.refused op.extractedId
        exact ⟨e, .operation hop hm he⟩
      · exact ⟨_, .chosen hpair hfirst hsecond⟩
      · exact ⟨_, .repaired hf hs hname hnone rfl⟩
    obtain ⟨e, he⟩ := hsome
    cases happly : t.apply ops schemas with
    | error e => exact ⟨e, rfl⟩
    | ok result => exact (not_fault_of_apply hd happly he).elim
  · have hnames := Renaming.isWord_names h
    obtain ⟨r, ids, hr, hi, rfl, rfl⟩ := apply_eq_ok.mp h
    have hids := Api.identified_renamedIds (r := r) hi
    exact ⟨hnames, hids.words, nodup_names_rename hr hd, hids.apart.1⟩

/-- Schemas under their declared names. -/
def declaredSchemas (names : List String) : List SchemaRecord := names.map fun name => ⟨name, name, none, .unknown⟩

/-- Chooses what the schema `pet-store` and the operation `all-pets` are repaired to. -/
def greedy : MappingTable := ⟨[("list", .method "all pets")], [("pets", "pet store")]⟩

/-- A chosen schema name stands in the way of the schema that is repaired to it, a chosen method does not. -/
theorem apply_refused_iff_greedy :
    ((declaredSchemas ["pets", "pet-store"]).map (·.name)).Nodup ∧
      (∃ e, greedy.apply [] (declaredSchemas ["pets", "pet-store"]) = .error e) ∧
    ((declaredSchemas ["pets", "3d"]).map (·.name)).Nodup ∧
      ∃ ops schemas, greedy.apply [Groups.called "list" "list", Groups.called "all-pets" "all-pets"]
          (declaredSchemas ["pets", "3d"]) = .ok (ops, schemas) ∧
        ops.map (·.id) = ["allPets", "allPets"] ∧ schemas.map (·.name) = ["petStore", "Schema3d"] ∧
        WellNamed greedy ops schemas := by
  have hrefused : ((declaredSchemas ["pets", "pet-store"]).map (·.name)).Nodup := by decide
  have hnamed : ((declaredSchemas ["pets", "3d"]).map (·.name)).Nodup := by decide
  obtain ⟨ops, schemas, happly, hids, hnames⟩ : ∃ ops schemas,
      greedy.apply [Groups.called "list" "list", Groups.called "all-pets" "all-pets"]
          (declaredSchemas ["pets", "3d"]) = .ok (ops, schemas) ∧
        ops.map (·.id) = ["allPets", "allPets"] ∧ schemas.map (·.name) = ["petStore", "Schema3d"] :=
    ⟨_, _, rfl, by decide +kernel, by decide +kernel⟩
  refine ⟨hrefused, (apply_refused_iff hrefused).1.mpr (.inr (.inr (.inr ?_))), hnamed, ops, schemas, happly,
    hids, hnames, (apply_refused_iff hnamed).2.2 ops schemas happly⟩
  exact ⟨⟨"pets", "pets", none, .unknown⟩, by simp [declaredSchemas],
    ⟨"pet-store", "pet-store", none, .unknown⟩, by simp [declaredSchemas], by decide +kernel, by decide +kernel⟩

end MappingTable
end ClientGen
