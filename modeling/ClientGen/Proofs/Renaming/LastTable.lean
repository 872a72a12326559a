import Mathlib.Data.List.Induction
import ClientGen.Proofs.Renaming.Isomorphism

/-! Names are decided from declared names and references are followed from current ones, so of several
tables applied in turn only the last one matters. -/
namespace ClientGen
open Api (Operation SchemaRecord)
variable {t : MappingTable} {ops ops' : List Operation} {schemas schemas' rest : List SchemaRecord}
  {r r₁ r₂ : Renaming} {ids ids₁ used N : List String} {f g h : String → String} {a : String}

namespace Renaming

/-- The same new names, for schemas that are renamed already. -/
def mapKeys (f : String → String) (r : Renaming) : Renaming := ⟨r.names.mapKeys f, r.claimed⟩

/-- The first loop uses current names only to keep schemas apart. -/
theorem choose_map (hf : ∀ a ∈ N, ∀ b ∈ N, f a = f b → a = b) (hrest : ∀ s ∈ rest, s.name ∈ N)
    (hr : ∀ a ∈ r.names.keys, a ∈ N) :
    choose t (rest.map (·.rename f)) (r.mapKeys f) = (choose t rest r).map (mapKeys f) := by
  -- The names given so far are keyed by listed schemas, and `f` keeps those apart.
  induction rest generalizing r with
  | nil => rfl
  | cons s rest ih =>
    obtain ⟨hs, hrest⟩ := List.forall_mem_cons.mp hrest
    have ht : target? t (s.rename f) = target? t s := rfl
    have hd : (s.rename f).declaredName = s.declaredName := rfl
    have hn : (s.rename f).name = f s.name := rfl
    rw [List.map_cons, choose, choose, ht, hd, hn]
    cases target? t s with
    | none => exact ih hrest hr
    | some target =>
      cases hc : Identifier.checked s.declaredName target with
      | error e => simp only [hc, error_bind, Except.map]
      | ok name =>
        simp only [hc, ok_bind, mapKeys]
        cases Entries.get? r.claimed name with
        | some first => rfl
        | none =>
          have hput := Entries.put_mapKeys (v := name) fun a ha he => hf a (hr a ha) s.name hs he
          rw [hput]
          refine ih (r := ⟨r.names.put s.name name, r.claimed.put name s.declaredName⟩) hrest ?_
          intro a ha
          rcases Entries.mem_keys_put.mp ha with rfl | ha
          · exact hs
          · exact hr a ha

/-- Neither does the second. -/
theorem repair_map (hf : ∀ a ∈ N, ∀ b ∈ N, f a = f b → a = b) (hrest : ∀ s ∈ rest, s.name ∈ N)
    (hr : ∀ a ∈ r.names.keys, a ∈ N) :
    repair (rest.map (·.rename f)) used (r.mapKeys f) = (repair rest used r).map (mapKeys f) := by
  induction rest generalizing r used with
  | nil => rfl
  | cons s rest ih =>
    obtain ⟨hs, hrest⟩ := List.forall_mem_cons.mp hrest
    have hd : (s.rename f).declaredName = s.declaredName := rfl
    have hn : (s.rename f).name = f s.name := rfl
    have hk : ∀ a ∈ r.names.keys, f a = f s.name → a = s.name :=
      fun a ha he => hf a (hr a ha) s.name hs he
    have hhas : Entries.has (r.mapKeys f).names (f s.name) = Entries.has r.names s.name :=
      Entries.has_mapKeys hk
    rw [List.map_cons, repair, repair, hd, hn, hhas]
    by_cases hin : Entries.has r.names s.name
    · rw [if_pos hin, if_pos hin]
      exact ih hrest hr
    · rw [if_neg hin, if_neg hin]
      simp only [mapKeys]
      cases Entries.get? r.claimed (Identifier.repaired s.declaredName "Schema") with
      | some first => rfl
      | none =>
        dsimp only
        rw [Entries.put_mapKeys hk]
        refine ih (r := ⟨r.names.put s.name _, r.claimed⟩) hrest ?_
        intro a ha
        rcases Entries.mem_keys_put.mp ha with rfl | ha
        · exact hs
        · exact hr a ha

/-- Schemas that are renamed without clash get the names they would have got. -/
theorem ofTable_map (hf : ∀ a ∈ schemas.map (·.name), ∀ b ∈ schemas.map (·.name), f a = f b → a = b) :
    ofTable t (schemas.map (·.rename f)) = (ofTable t schemas).map (mapKeys f) := by
  have hN : ∀ s ∈ schemas, s.name ∈ schemas.map (·.name) := fun s hs => List.mem_map_of_mem hs
  have hc : choose t (schemas.map (·.rename f)) empty = (choose t schemas empty).map (mapKeys f) :=
    choose_map (r := empty) hf hN (fun _ ha => nomatch ha)
  rw [ofTable, ofTable, hc]
  cases hch : choose t schemas empty with
  | error e => rfl
  | ok chosen =>
    have ha := assigned_choose hch (fun _ hs => hs) assigned_nil
    refine repair_map hf hN fun a hmem => ?_
    obtain ⟨n, hn⟩ := Entries.exists_get?_iff.mpr hmem
    exact ha.listed hn

/-- Following a reference in two steps leads where the second table alone leads. -/
theorem apply_mapKeys (h : ofTable t schemas = .ok r)
    (hf : ∀ a ∈ schemas.map (·.name), ∀ b ∈ schemas.map (·.name), f a = f b → a = b)
    (ha : a ∈ schemas.map (·.name)) : (r.mapKeys f).apply (f a) = r.apply a := by
  obtain ⟨_, has⟩ := assigned_ofTable h
  obtain ⟨n, hn⟩ := exists_get?_ofTable h ha
  rw [apply_eq_of_get? hn]
  refine apply_eq_of_get? ?_
  rw [← hn]
  refine Entries.get?_mapKeys fun b hb he => hf b ?_ a ha he
  obtain ⟨m, hm⟩ := Entries.exists_get?_iff.mpr hb
  exact has.listed hm

end Renaming

/-- Identifiers are made from the extracted ones alone. -/
theorem Api.renamedIds_congr (h : ops.map (·.extractedId) = ops'.map (·.extractedId)) :
    renamedIds t ops used = renamedIds t ops' used := by
  induction ops generalizing ops' used with
  | nil =>
    cases ops' with
    | nil => rfl
    | cons => cases h
  | cons op ops ih =>
    cases ops' with
    | nil => cases h
    | cons op' ops' =>
      obtain ⟨(he : op.extractedId = op'.extractedId), h⟩ := List.cons_eq_cons.mp h
      rw [renamedIds, renamedIds, he]
      simp only [ih h]

theorem extractedIds_renamedOperations (hl : ids.length = ops.length) :
    (renamedOperations r ops ids).map (·.extractedId) = ops.map (·.extractedId) := by
  induction ops generalizing ids with
  | nil => rfl
  | cons op ops ih =>
    cases ids with
    | nil => cases hl
    | cons id ids => exact congrArg (op.extractedId :: ·) (ih (Nat.succ.inj hl))

theorem renamedOperations_renamedOperations (hl : ids₁.length = ops.length)
    (hr : ∀ op ∈ ops, ∀ a, op.References a → r₂.apply (r₁.apply a) = r.apply a) :
    renamedOperations r₂ (renamedOperations r₁ ops ids₁) ids = renamedOperations r ops ids := by
  induction ops generalizing ids₁ ids with
  | nil => rfl
  | cons op ops ih =>
    obtain ⟨hop, hr⟩ := List.forall_mem_cons.mp hr
    cases ids₁ with
    | nil => cases hl
    | cons id₁ ids₁ =>
      cases ids with
      | nil => rfl
      | cons id ids =>
        refine congrArg₂ List.cons ?_ (ih (Nat.succ.inj hl) hr)
        rw [Operation.renamed_renamed]
        exact Operation.renamed_congr hop id

theorem schemas_rename_rename (hs : ∀ s ∈ schemas, g (f s.name) = h s.name)
    (hr : ∀ s ∈ schemas, ∀ a ∈ s.shape.references, g (f a) = h a) :
    (schemas.map (·.rename f)).map (·.rename g) = schemas.map (·.rename h) := by
  rw [List.map_map]
  refine List.map_congr_left fun s hmem => ?_
  have hshape : (s.shape.rename f).rename g = s.shape.rename h := by
    rw [Shape.rename_rename]
    exact s.shape.rename_congr (hr s hmem)
  simp only [Function.comp_apply, SchemaRecord.rename, hs s hmem, hshape]

/-- A second table does to the outcome of a first what it does to the start. -/
theorem MappingTable.apply_apply {t₁ : MappingTable} (hc : Api.Closed ops schemas)
    (h : t₁.apply ops schemas = .ok (ops', schemas')) : t.apply ops' schemas' = t.apply ops schemas := by
  obtain ⟨r₁, ids₁, hr₁, hi₁, rfl, rfl⟩ := MappingTable.apply_eq_ok.mp h
  have hl := Api.length_renamedIds hi₁
  have hf : ∀ a ∈ schemas.map (·.name), ∀ b ∈ schemas.map (·.name),
      r₁.apply a = r₁.apply b → a = b := fun a ha b hb he => Renaming.apply_injective hr₁ ha hb he
  have hids (used : List String) :
      Api.renamedIds t (renamedOperations r₁ ops ids₁) used = Api.renamedIds t ops used :=
    Api.renamedIds_congr (extractedIds_renamedOperations hl)
  rw [MappingTable.apply, MappingTable.apply, Renaming.ofTable_map hf]
  cases hr : Renaming.ofTable t schemas with
  | error e => rfl
  | ok r =>
    simp only [Except.map, ok_bind, hids]
    cases Api.renamedIds t ops [] with
    | error e => rfl
    | ok ids =>
      have happly : ∀ a ∈ schemas.map (·.name), (r.mapKeys r₁.apply).apply (r₁.apply a) = r.apply a :=
        fun a ha => Renaming.apply_mapKeys hr hf ha
      have hops : renamedOperations (r.mapKeys r₁.apply) (renamedOperations r₁ ops ids₁) ids =
          renamedOperations r ops ids :=
        renamedOperations_renamedOperations hl fun op hop a ha => happly a (hc.operations op hop a ha)
      have hschemas : (schemas.map (·.rename r₁.apply)).map (·.rename (r.mapKeys r₁.apply).apply) =
          schemas.map (·.rename r.apply) :=
        schemas_rename_rename (fun s hs => happly s.name (List.mem_map_of_mem hs))
          fun s hs a ha => happly a (hc.schemas s hs a ha)
      exact congrArg Except.ok (congrArg₂ Prod.mk hops hschemas)

/-- One step of a session: a table that cannot be applied leaves everything as it is. -/
def remapped (state : List Operation × List SchemaRecord) (t : MappingTable) :
    List Operation × List SchemaRecord :=
  match t.apply state.1 state.2 with
  | .ok new => new
  | .error _ => state

variable {start state : List Operation × List SchemaRecord}

/-- What a table does is the same after one more step. -/
theorem apply_remapped (hc : Api.Closed start.1 start.2)
    (hs : ∀ t : MappingTable, t.apply state.1 state.2 = t.apply start.1 start.2) (t u : MappingTable) :
    u.apply (remapped state t).1 (remapped state t).2 = u.apply start.1 start.2 := by
  rw [remapped]
  cases h : t.apply state.1 state.2 with
  | error e => exact hs u
  | ok new =>
    rw [hs t] at h
    exact MappingTable.apply_apply hc h

theorem apply_session (hc : Api.Closed start.1 start.2) (tables : List MappingTable)
    (u : MappingTable) :
    u.apply (tables.foldl remapped start).1 (tables.foldl remapped start).2 =
      u.apply start.1 start.2 := by
  induction tables using List.reverseRecOn generalizing u with
  | nil => rfl
  | append_singleton tables t ih =>
    rw [List.foldl_concat]
    exact apply_remapped hc ih t u

/-- The state is the outcome of the last table that could be applied, from the start. -/
theorem session_eq (hc : Api.Closed start.1 start.2) (tables : List MappingTable) :
    tables.foldl remapped start =
      (tables.filterMap fun t => (t.apply start.1 start.2).toOption).getLastD start := by
  induction tables using List.reverseRecOn with
  | nil => rfl
  | append_singleton tables t ih =>
    rw [List.foldl_concat, List.filterMap_append, remapped, apply_session hc]
    cases ht : t.apply start.1 start.2 with
    | error e =>
      rw [List.filterMap_cons_none (by rw [ht]; rfl), List.filterMap_nil, List.append_nil]
      exact ih
    | ok new =>
      rw [List.filterMap_cons_some (by rw [ht]; rfl), List.filterMap_nil, List.getLastD_concat]

/-- Only the last table matters: one table after another does what it does alone, be that a failure,
and so a whole session comes to its last table that could be applied. -/
theorem MappingTable.apply_last (hc : Api.Closed ops schemas) :
    (∀ (t₁ t₂ : MappingTable) ops₁ schemas₁, t₁.apply ops schemas = .ok (ops₁, schemas₁) →
      t₂.apply ops₁ schemas₁ = t₂.apply ops schemas) ∧
    ∀ tables : List MappingTable, ∀ state, tables.foldl remapped (ops, schemas) = state →
      (∀ t : MappingTable, t.apply state.1 state.2 = t.apply ops schemas) ∧
      state = (tables.filterMap fun t => (t.apply ops schemas).toOption).getLastD (ops, schemas) := by
  refine ⟨fun t₁ t₂ ops₁ schemas₁ h => MappingTable.apply_apply hc h, ?_⟩
  rintro tables _ rfl
  exact ⟨apply_session hc tables, session_eq hc tables⟩

theorem closed_twins : Api.Closed [getter "A"] (twins "A" "B") where
  distinct := by decide
  operations op hop a := by
    rw [List.mem_singleton.mp hop]
    rintro ⟨s, hs, ha⟩
    have hs : s = .reference "A" := List.mem_singleton.mp hs
    rw [hs] at ha
    rw [List.mem_singleton.mp ha]
    exact List.mem_cons_self
  schemas s hs a ha := by
    simp only [twins, List.mem_cons, List.not_mem_nil, or_false] at hs
    rcases hs with rfl | rfl <;>
      simp_all [twins, Shape.references, ObjectShape.references, referencesOfMembers,
        referencesOfAdditional]

/-- Swapping two names twice swaps them once. -/
theorem MappingTable.apply_last_swap :
    swap.apply [getter "B"] (twins "B" "A") = swap.apply [getter "A"] (twins "A" "B") :=
  (MappingTable.apply_last closed_twins).1 swap swap _ _ rfl

end ClientGen
