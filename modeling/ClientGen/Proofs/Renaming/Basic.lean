import ClientGen.Mapping.Rename
import ClientGen.Proofs.Entries
import ClientGen.Proofs.Identifier
import ClientGen.Proofs.Outcome

/-! The new names of schemas: every schema gets one, and no two get the same. -/
namespace ClientGen.Renaming
open Api (SchemaRecord)
variable {t : MappingTable} {schemas rest : List SchemaRecord} {s : SchemaRecord}
  {r r' : Renaming} {names : Entries String String} {used used' : List String} {a b n : String}

/-- What the first loop has done with a schema, if it went on. -/
theorem choose_cons (h : choose t (s :: rest) r = .ok r') :
    (target? t s = none ∧ choose t rest r = .ok r') ∨
    ∃ target name, target? t s = some target ∧
      Identifier.checked s.declaredName target = .ok name ∧ name ∉ r.claimed.keys ∧
      choose t rest ⟨r.names.put s.name name, r.claimed.put name s.declaredName⟩ = .ok r' := by
  rw [choose] at h
  cases ht : target? t s with
  | none => exact .inl ⟨rfl, by simpa only [ht] using h⟩
  | some target =>
    simp only [ht, bind_eq_ok] at h
    obtain ⟨name, hn, h⟩ := h
    cases hc : Entries.get? r.claimed name with
    | some first => simp [hc] at h
    | none =>
      refine .inr ⟨target, name, rfl, hn, fun hmem => ?_, by simpa only [hc] using h⟩
      obtain ⟨first, hf⟩ := Entries.exists_get?_iff.mpr hmem
      simp [hc] at hf

/-- What the second loop has done with a schema, if it went on. -/
theorem repair_cons (h : repair (s :: rest) used r = .ok r') :
    (s.name ∈ r.names.keys ∧ repair rest used r = .ok r') ∨
    ∃ name, s.name ∉ r.names.keys ∧
      Identifier.repaired s.declaredName "Schema" ∉ r.claimed.keys ∧
      name = Identifier.fresh used (Identifier.repaired s.declaredName "Schema") ∧
      repair rest (name :: used) ⟨r.names.put s.name name, r.claimed⟩ = .ok r' := by
  rw [repair] at h
  by_cases hs : Entries.has r.names s.name
  · exact .inl ⟨Entries.has_eq_true_iff.mp hs, by simpa only [hs, if_true] using h⟩
  · rw [if_neg hs] at h
    dsimp only at h
    cases hc : Entries.get? r.claimed (Identifier.repaired s.declaredName "Schema") with
    | some first => simp [hc] at h
    | none =>
      refine .inr ⟨_, fun hmem => hs (Entries.has_eq_true_iff.mpr hmem), fun hmem => ?_, rfl,
        by simpa only [hc] using h⟩
      obtain ⟨first, hf⟩ := Entries.exists_get?_iff.mpr hmem
      simp [hc] at hf

/-- The names given so far: to listed schemas only, all of them used, and none of them twice. -/
structure Assigned (schemas : List SchemaRecord) (names : Entries String String)
    (used : List String) : Prop where
  listed : ∀ {a n}, names.get? a = some n → a ∈ schemas.map (·.name)
  used : ∀ {a n}, names.get? a = some n → n ∈ used
  injective : ∀ {a b n}, names.get? a = some n → names.get? b = some n → a = b

theorem assigned_nil : Assigned schemas [] [] where
  listed h := nomatch h
  used h := nomatch h
  injective h := nomatch h

theorem Assigned.mono (h : Assigned schemas names used) (hu : used ⊆ used') :
    Assigned schemas names used' :=
  ⟨h.listed, fun ha => hu (h.used ha), h.injective⟩

/-- A schema may be given any name that is not used yet. -/
theorem Assigned.put (h : Assigned schemas names used) (hs : s ∈ schemas) (hn : n ∉ used) :
    Assigned schemas (names.put s.name n) (n :: used) := by
  have old {a m : String} (ha : (names.put s.name n).get? a = some m) :
      (a = s.name ∧ m = n) ∨ names.get? a = some m := by
    rw [Entries.get?_put] at ha
    by_cases he : s.name = a
    · exact .inl ⟨he.symm, by simpa [he, eq_comm] using ha⟩
    · exact .inr (by simpa [he] using ha)
  refine ⟨fun ha => ?_, fun ha => ?_, fun ha hb => ?_⟩
  · rcases old ha with ⟨rfl, rfl⟩ | ha
    · exact List.mem_map.mpr ⟨s, hs, rfl⟩
    · exact h.listed ha
  · rcases old ha with ⟨_, rfl⟩ | ha
    · exact List.mem_cons_self
    · exact List.mem_cons_of_mem _ (h.used ha)
  · rcases old ha with ⟨rfl, rfl⟩ | ha <;> rcases old hb with ⟨rfl, he⟩ | hb
    · rfl
    · exact (hn (h.used hb)).elim
    · exact (hn (he ▸ h.used ha)).elim
    · exact h.injective ha hb

theorem assigned_choose (h : choose t rest r = .ok r') (hsub : ∀ s ∈ rest, s ∈ schemas)
    (ha : Assigned schemas r.names r.claimed.keys) :
    Assigned schemas r'.names r'.claimed.keys := by
  induction rest generalizing r with
  | nil =>
    cases h
    exact ha
  | cons s rest ih =>
    obtain ⟨hs, hsub⟩ := List.forall_mem_cons.mp hsub
    rcases choose_cons h with ⟨_, h⟩ | ⟨_, name, _, _, hn, h⟩
    · exact ih h hsub ha
    · -- a chosen name is claimed from now on
      refine ih h hsub ((ha.put hs hn).mono fun x hx => ?_)
      rw [Entries.mem_keys_put]
      exact List.mem_cons.mp hx

theorem assigned_repair (h : repair rest used r = .ok r') (hsub : ∀ s ∈ rest, s ∈ schemas)
    (ha : Assigned schemas r.names used) : ∃ used', Assigned schemas r'.names used' := by
  induction rest generalizing r used with
  | nil =>
    cases h
    exact ⟨used, ha⟩
  | cons s rest ih =>
    obtain ⟨hs, hsub⟩ := List.forall_mem_cons.mp hsub
    rcases repair_cons h with ⟨_, h⟩ | ⟨name, _, _, hn, h⟩
    · exact ih h hsub ha
    · exact ih h hsub (ha.put hs (hn ▸ Identifier.fresh_not_mem _ _))

/-- The second loop takes no name away and leaves no schema without one. -/
theorem mem_keys_repair (h : repair rest used r = .ok r')
    (ha : a ∈ r.names.keys ∨ a ∈ rest.map (·.name)) : a ∈ r'.names.keys := by
  induction rest generalizing r used with
  | nil =>
    cases h
    simpa using ha
  | cons s rest ih =>
    rw [List.map_cons, List.mem_cons] at ha
    rcases repair_cons h with ⟨hs, h⟩ | ⟨name, _, _, _, h⟩
    · refine ih h ?_
      rcases ha with ha | rfl | ha
      · exact .inl ha
      · exact .inl hs
      · exact .inr ha
    · refine ih h ?_
      rw [Entries.mem_keys_put]
      rcases ha with ha | rfl | ha
      · exact .inl (.inr ha)
      · exact .inl (.inl rfl)
      · exact .inr ha

theorem ofTable_eq_ok (h : ofTable t schemas = .ok r) :
    ∃ chosen, choose t schemas empty = .ok chosen ∧
      repair schemas chosen.claimed.keys chosen = .ok r := by
  simpa only [ofTable, bind_eq_ok] using h

/-- Both loops together give every name once. -/
theorem assigned_ofTable (h : ofTable t schemas = .ok r) :
    ∃ used, Assigned schemas r.names used := by
  obtain ⟨chosen, hc, hr⟩ := ofTable_eq_ok h
  exact assigned_repair hr (fun _ hs => hs) (assigned_choose hc (fun _ hs => hs) assigned_nil)

theorem exists_get?_ofTable (h : ofTable t schemas = .ok r) (ha : a ∈ schemas.map (·.name)) :
    ∃ n, r.names.get? a = some n := by
  obtain ⟨chosen, _, hr⟩ := ofTable_eq_ok h
  exact Entries.exists_get?_iff.mpr (mem_keys_repair hr (.inr ha))

theorem apply_eq_of_get? (h : r.names.get? a = some n) : r.apply a = n := by
  rw [apply, h, Option.getD_some]

/-- A name that no schema has is left as it is. -/
theorem apply_eq_self (h : ofTable t schemas = .ok r) (ha : a ∉ schemas.map (·.name)) :
    r.apply a = a := by
  obtain ⟨_, has⟩ := assigned_ofTable h
  rw [apply]
  cases hn : r.names.get? a with
  | none => rfl
  | some n => exact (ha (has.listed hn)).elim

/-- Schemas with two names keep two names. -/
theorem apply_injective (h : ofTable t schemas = .ok r) (ha : a ∈ schemas.map (·.name))
    (hb : b ∈ schemas.map (·.name)) (he : r.apply a = r.apply b) : a = b := by
  obtain ⟨_, has⟩ := assigned_ofTable h
  obtain ⟨m, hm⟩ := exists_get?_ofTable h ha
  obtain ⟨n, hn⟩ := exists_get?_ofTable h hb
  rw [apply_eq_of_get? hm, apply_eq_of_get? hn] at he
  exact has.injective hm (he ▸ hn)

end ClientGen.Renaming
