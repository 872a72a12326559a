import ClientGen.Proofs.Model

/-! Identifiers within one class: no two operations of a client, or of a group, share one. -/
namespace ClientGen
open Api (Operation)
variable {t : MappingTable} {m : Model} {op : Operation} {ops seen : List Operation}
  {groups groups' : Groups} {service : String}

namespace Groups

/-- Every service has one group, and every identifier one operation within it. -/
structure Distinct (groups : Groups) : Prop where
  services : groups.keys.Nodup
  ids : ∀ g ∈ groups, (g.2.map (·.id)).Nodup

theorem distinct_add (h : groups.add service op = .ok groups') (hg : groups.Distinct) :
    groups'.Distinct := by
  rw [add] at h
  split at h
  · cases h
  · rename_i hnew
    cases h
    refine ⟨Entries.nodup_keys_put hg.services, fun g hmem => ?_⟩
    rcases Entries.mem_put hmem with rfl | hmem
    · have hids : (((Entries.get? groups service).getD []).map (·.id)).Nodup := by
        cases hs : Entries.get? groups service with
        | none => exact List.nodup_nil
        | some members => exact hg.ids _ (Entries.mem_of_get? hs)
      have hop : ∀ x ∈ (Entries.get? groups service).getD [], x.id ≠ op.id := by
        simpa [List.find?_eq_none] using hnew
      rw [List.map_append, List.map_singleton, ← List.concat_eq_append]
      refine hids.concat fun hmem => ?_
      obtain ⟨x, hx, he⟩ := List.mem_map.mp hmem
      exact hop x hx he
    · exact hg.ids g hmem

theorem distinct_ofOperations (h : ofOperations t ops = .ok groups) : groups.Distinct := by
  refine foldlM_eq_ok (P := Distinct) (fun groups op groups' _ hg hstep => ?_)
    ⟨by simp [Entries.keys], fun _ h => (List.not_mem_nil h).elim⟩ h
  obtain ⟨service, _, ha⟩ := bind_eq_ok.mp hstep
  exact distinct_add ha hg

/-- The operations of all groups, group by group. -/
def members (groups : Groups) : List Operation := groups.flatMap (·.2)

theorem members_put_append (groups : Groups) (service : String) (op : Operation) :
    (members (Entries.put groups service ((Entries.get? groups service).getD [] ++ [op]))).Perm
      (groups.members ++ [op]) := by
  induction groups with
  | nil => simp [Entries.get?, Entries.put, members]
  | cons g groups ih =>
    obtain ⟨name, ops⟩ := g
    simp only [members] at ih
    by_cases hs : name = service
    · simp only [Entries.get?, Entries.put, members, hs, if_true, Option.getD_some, List.flatMap_cons,
        List.append_assoc]
      exact List.perm_append_comm.append_left ops
    · simp only [Entries.get?, Entries.put, members, hs, if_false, List.flatMap_cons, List.append_assoc]
      exact ih.append_left ops

theorem members_add (h : groups.add service op = .ok groups') :
    groups'.members.Perm (groups.members ++ [op]) := by
  rw [add] at h
  split at h
  · cases h
  · cases h
    exact members_put_append groups service op

/-- Grouping neither loses an operation nor repeats one. -/
theorem members_foldlM (h : ops.foldlM (fun groups op => do groups.add (← serviceOf t op) op) groups =
    .ok groups') : groups'.members.Perm (groups.members ++ ops) := by
  induction ops generalizing groups with
  | nil =>
    cases h
    rw [List.append_nil]
  | cons op ops ih =>
    rw [List.foldlM_cons] at h
    obtain ⟨next, hstep, h⟩ := bind_eq_ok.mp h
    obtain ⟨service, -, hadd⟩ := bind_eq_ok.mp hstep
    have hnext := (members_add hadd).append_right ops
    rw [List.append_assoc, List.singleton_append] at hnext
    exact (ih h).trans hnext

theorem members_ofOperations (h : ofOperations t ops = .ok groups) : groups.members.Perm ops :=
  members_foldlM h

/-- The members of one group are those found under its name. -/
theorem members_filter_eq (hd : groups.keys.Nodup) (service : String) :
    members (groups.filter (·.1 = service)) = (Entries.get? groups service).getD [] := by
  induction groups with
  | nil => rfl
  | cons g groups ih =>
    obtain ⟨name, ops⟩ := g
    obtain ⟨hname, hd⟩ := List.nodup_cons.mp hd
    by_cases hs : name = service
    · have hrest : ∀ g ∈ groups, ¬g.1 = service := fun g hg he =>
        hname (List.mem_map.mpr ⟨g, hg, he.trans hs.symm⟩)
      have hnone : groups.filter (·.1 = service) = [] := by simpa using hrest
      simp [members, Entries.get?, hs, hnone]
    · simpa [members, Entries.get?, hs] using ih hd

/-- One group apart from the others. -/
theorem members_apart (hd : groups.keys.Nodup) (service : String) :
    (members (groups.filter (·.1 ≠ service)) ++ (Entries.get? groups service).getD []).Perm
      groups.members := by
  rw [← members_filter_eq hd, members, members, ← List.flatMap_append]
  refine List.Perm.flatMap_right _ (List.perm_append_comm.trans ?_)
  simpa using List.filter_append_perm (·.1 = service) groups

end Groups

namespace Model

theorem repeatedId?_eq_none_iff : repeatedId? seen ops = none ↔
    (ops.map (·.id)).Nodup ∧ ∀ op ∈ ops, ∀ x ∈ seen, x.id ≠ op.id := by
  induction ops generalizing seen with
  | nil => simp [repeatedId?]
  | cons op ops ih =>
    rw [repeatedId?]
    cases hf : seen.find? (·.id = op.id) with
    | some first =>
      have hmem := List.mem_of_find?_eq_some hf
      have hid : first.id = op.id := by simpa using List.find?_some hf
      simp only [reduceCtorEq, false_iff, not_and]
      exact fun _ h => h op List.mem_cons_self first hmem hid
    | none =>
      have hnew : ∀ x ∈ seen, x.id ≠ op.id := by simpa using hf
      simp only [ih, List.map_cons, List.nodup_cons, List.mem_map, not_exists, not_and,
        List.forall_mem_cons]
      grind

/-- One client takes all operations, if their identifiers are distinct. -/
theorem flatOperations_eq_ok_iff :
    m.flatOperations = .ok ops ↔ ops = m.operations ∧ (m.operations.map (·.id)).Nodup := by
  have hnone : repeatedId? [] m.operations = none ↔ (m.operations.map (·.id)).Nodup := by
    simp [repeatedId?_eq_none_iff]
  rw [flatOperations, ← hnone]
  cases repeatedId? [] m.operations with
  | some pair => simp
  | none => simp [eq_comm]

end Model
end ClientGen
