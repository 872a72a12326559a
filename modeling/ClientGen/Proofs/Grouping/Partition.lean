import ClientGen.Proofs.Casing
import ClientGen.Proofs.Grouping

/-! Grouping as a partition. The groups part the operations by the services that these are given, in their
order, and grouping fails at the first operation whose service cannot be used or whose identifier is taken
within its group. -/
namespace ClientGen
open Api (Operation)
open Letter

namespace Identifier
variable {subject value name : String} {c : Char}

/-- The first letter or digit, which is where the identifier made of the text begins. -/
def firstKept? (s : String) : Option Char := s.toList.find? isAsciiAlnum

theorem isDigit_toUpper (h : isAsciiAlnum c) : c.toUpper.isDigit = c.isDigit ∧ (!c.isDigit) = c.isAlpha :=
  ascii_forall (P := fun c => isAsciiAlnum c → c.toUpper.isDigit = c.isDigit ∧ (!c.isDigit) = c.isAlpha)
    (by decide +kernel) (lt_of_isAsciiAlnum h) h

theorem head?_sanitizeFrom (capital : Bool) (s : List Char) :
    (sanitizeFrom capital s).head?.map Char.isDigit = (s.find? isAsciiAlnum).map Char.isDigit := by
  induction s generalizing capital with
  | nil => rfl
  | cons c s ih =>
    rw [sanitizeFrom]
    by_cases hc : isAsciiAlnum c
    · cases capital <;> simp [hc, isDigit_toUpper hc]
    · simpa [hc] using ih true

/-- A chosen name must begin with a letter, what sanitizing drops apart. -/
theorem checked_eq (subject value : String) : checked subject value =
    match firstKept? value with
    | none => .error (.emptyIdentifier subject value)
    | some c => if c.isAlpha then .ok (sanitize value) else .error (.invalidIdentifier subject value) := by
  have hhead := head?_sanitizeFrom false value.toList
  rw [checked, firstKept?]
  simp only [sanitize, String.toList_ofList]
  cases hs : sanitizeFrom false value.toList with
  | nil =>
    rw [hs] at hhead
    cases hf : value.toList.find? isAsciiAlnum with
    | none => simp
    | some c => simp [hf] at hhead
  | cons d s =>
    rw [hs] at hhead
    cases hf : value.toList.find? isAsciiAlnum with
    | none => simp [hf] at hhead
    | some c =>
      have hdigit : d.isDigit = c.isDigit := by simpa [hf] using hhead
      have halpha : c.isAlpha = !c.isDigit := (isDigit_toUpper (List.find?_some hf)).2.symm
      cases hc : c.isDigit <;> simp [hdigit, halpha, hc]

end Identifier

namespace Groups
variable {t : MappingTable} {op first : Operation} {ops before after : List Operation}
  {groups groups' : Groups} {name : String} {e : MappingError}

/-- The service that the table gives an operation, as it is written there. -/
def serviceText? (t : MappingTable) (op : Operation) : Option String :=
  (t.operation op.extractedId).bind OperationMapping.serviceName?

/-- The name of the group that an operation belongs to. -/
def groupName (t : MappingTable) (op : Operation) : String :=
  (serviceText? t op).elim defaultService Identifier.sanitize

/-- A service, if there is one, has a letter for its first letter or digit. -/
def Named (t : MappingTable) (op : Operation) : Prop :=
  ∀ service ∈ serviceText? t op, ∃ c ∈ Identifier.firstKept? service, c.isAlpha

/-- What an operation is refused for, after the operations `before` it. -/
inductive Fault (t : MappingTable) (before : List Operation) (op : Operation) : MappingError → Prop
  | empty {service : String} : serviceText? t op = some service → Identifier.firstKept? service = none →
    Fault t before op (.emptyIdentifier op.extractedId service)
  | digit {service : String} {c : Char} : serviceText? t op = some service →
    Identifier.firstKept? service = some c → ¬c.isAlpha →
    Fault t before op (.invalidIdentifier op.extractedId service)
  | duplicate {first : Operation} : Named t op → first ∈ before → groupName t first = groupName t op →
    first.id = op.id →
    Fault t before op (.duplicateMethod (groupName t op) op.id first.extractedId op.extractedId)

/-- The groups of the operations `ops`. -/
structure Partition (t : MappingTable) (ops : List Operation) (groups : Groups) : Prop
    extends Distinct groups where
  /-- A group has all operations of its name, in their order. -/
  operations : ∀ g ∈ groups, g.2 ≠ [] ∧ g.2 = ops.filter (groupName t · = g.1)
  covered : ∀ op ∈ ops, groupName t op ∈ groups.keys
  /-- Groups are in the order of their first operations. -/
  order : (groups.filterMap (·.2.head?)).Sublist ops

/-! ### One step -/

theorem serviceOf_eq (t : MappingTable) (op : Operation) : serviceOf t op =
    (serviceText? t op).elim (.ok defaultService) (Identifier.checked op.extractedId) := by
  rw [serviceOf, serviceText?]
  cases (t.operation op.extractedId).bind OperationMapping.serviceName? <;> rfl

theorem serviceOf_eq_ok : serviceOf t op = .ok name ↔ Named t op ∧ name = groupName t op := by
  rw [serviceOf_eq, Named, groupName]
  cases serviceText? t op with
  | none => simp [@eq_comm _ name]
  | some service =>
    simp only [Option.elim_some, Identifier.checked_eq, Option.mem_some_iff, forall_eq']
    cases Identifier.firstKept? service with
    | none => simp
    | some c => by_cases hc : c.isAlpha <;> simp [hc, @eq_comm _ name]

theorem serviceOf_eq_error : serviceOf t op = .error e ↔ ∃ service, serviceText? t op = some service ∧
    (Identifier.firstKept? service = none ∧ e = .emptyIdentifier op.extractedId service ∨
      ∃ c, Identifier.firstKept? service = some c ∧ ¬c.isAlpha ∧
        e = .invalidIdentifier op.extractedId service) := by
  rw [serviceOf_eq]
  cases serviceText? t op with
  | none => simp
  | some service =>
    simp only [Option.elim_some, Identifier.checked_eq, Option.some.injEq, exists_eq_left']
    cases Identifier.firstKept? service with
    | none => simp [@eq_comm _ e]
    | some c => by_cases hc : c.isAlpha <;> simp [hc, @eq_comm _ e]

/-- The members found so far are the operations of that name. -/
theorem Partition.get?_eq (h : groups.Partition t before) (name : String) :
    (Entries.get? groups name).getD [] = before.filter (groupName t · = name) := by
  cases hg : Entries.get? groups name with
  | some members => exact (h.operations _ (Entries.mem_of_get? hg)).2
  | none =>
    refine (List.filter_eq_nil_iff.mpr fun op hop he => Entries.get?_eq_none_iff.mp hg ?_).symm
    rw [← of_decide_eq_true he]
    exact h.covered op hop

theorem find?_id (hids : (ops.map (·.id)).Nodup) (hmem : first ∈ ops) (hid : first.id = op.id) :
    ops.find? (·.id = op.id) = some first := by
  cases hf : ops.find? (·.id = op.id) with
  | none => exact (List.find?_eq_none.mp hf first hmem (by simpa using hid)).elim
  | some x =>
    have hx : x.id = op.id := by simpa using List.find?_some hf
    rw [List.inj_on_of_nodup_map hids (List.mem_of_find?_eq_some hf) hmem (hx.trans hid.symm)]

/-- Only an identifier that an operation of the group has already is refused. -/
theorem add_eq_error (h : groups.Partition t before) : groups.add name op = .error e ↔
    ∃ first ∈ before, groupName t first = name ∧ first.id = op.id ∧
      e = .duplicateMethod name op.id first.extractedId op.extractedId := by
  have hids : ((before.filter (groupName t · = name)).map (·.id)).Nodup := by
    rw [← h.get?_eq name]
    cases hg : Entries.get? groups name with
    | none => exact List.nodup_nil
    | some members => exact h.ids _ (Entries.mem_of_get? hg)
  rw [add, h.get?_eq name]
  constructor
  · intro he
    split at he
    · rename_i first hf
      have hmem := List.mem_filter.mp (List.mem_of_find?_eq_some hf)
      cases he
      exact ⟨first, hmem.1, by simpa using hmem.2, by simpa using List.find?_some hf, rfl⟩
    · cases he
  · rintro ⟨first, hmem, hname, hid, rfl⟩
    have hf := find?_id hids (List.mem_filter.mpr ⟨hmem, by simpa using hname⟩) hid
    simp only [hf]

/-- A step fails for what is wrong with its operation. -/
theorem step_eq_error (h : groups.Partition t before) :
    (do groups.add (← serviceOf t op) op) = .error e ↔ Fault t before op e := by
  rw [bind_eq_error]
  constructor
  · rintro (hservice | ⟨name, hok, hadd⟩)
    · obtain ⟨service, hs, ⟨hnone, rfl⟩ | ⟨c, hc, hletter, rfl⟩⟩ := serviceOf_eq_error.mp hservice
      · exact .empty hs hnone
      · exact .digit hs hc hletter
    · obtain ⟨hnamed, rfl⟩ := serviceOf_eq_ok.mp hok
      obtain ⟨first, hfirst, hgroup, hid, rfl⟩ := (add_eq_error h).mp hadd
      exact .duplicate hnamed hfirst hgroup hid
  · intro hfault
    cases hfault with
    | empty hs hnone => exact .inl (serviceOf_eq_error.mpr ⟨_, hs, .inl ⟨hnone, rfl⟩⟩)
    | digit hs hc hletter => exact .inl (serviceOf_eq_error.mpr ⟨_, hs, .inr ⟨_, hc, hletter, rfl⟩⟩)
    | duplicate hnamed hfirst hgroup hid =>
      exact .inr ⟨_, serviceOf_eq_ok.mpr ⟨hnamed, rfl⟩, (add_eq_error h).mpr ⟨_, hfirst, hgroup, hid, rfl⟩⟩

/-- A step that succeeds puts the operation into its group. -/
theorem Partition.add (h : groups.Partition t before) (hadd : groups.add (groupName t op) op = .ok groups') :
    groups'.Partition t (before ++ [op]) := by
  have hdistinct := distinct_add hadd h.toDistinct
  have hmembers := h.get?_eq (groupName t op)
  rw [Groups.add] at hadd
  split at hadd
  · cases hadd
  · cases hadd
    refine { toDistinct := hdistinct, operations := fun g hg => ?_, covered := fun x hx => ?_, order := ?_ }
    · rcases Entries.mem_put_of_nodup h.services hg with rfl | ⟨hg, hname⟩
      · simp [hmembers]
      · simpa [Ne.symm hname] using h.operations g hg
    · rcases List.mem_append.mp hx with hx | hx
      · exact Entries.mem_keys_put.mpr (.inr (h.covered x hx))
      · exact Entries.mem_keys_put.mpr (.inl (List.mem_singleton.mp hx ▸ rfl))
    · -- the operation is the first of a new group at the end, or comes after the first of an old one
      cases hg : Entries.get? groups (groupName t op) with
      | none =>
        have hnew := Entries.get?_eq_none_iff.mp hg
        simpa [Entries.put_of_not_mem hnew] using h.order
      | some members =>
        have hne := (h.operations _ (Entries.mem_of_get? hg)).1
        rw [Entries.filterMap_put hg (by simp [List.head?_append_of_ne_nil _ hne])]
        exact h.order.trans (List.sublist_append_left before [op])

theorem partition_nil (t : MappingTable) : Partition t [] [] where
  services := List.nodup_nil
  ids _ h := nomatch h
  operations _ h := nomatch h
  covered _ h := nomatch h
  order := .slnil

/-! ### A whole run -/

theorem partition_foldlM (h : groups.Partition t before)
    (hrun : ops.foldlM (fun groups op => do groups.add (← serviceOf t op) op) groups = .ok groups') :
    groups'.Partition t (before ++ ops) := by
  induction ops generalizing groups before with
  | nil =>
    cases hrun
    rwa [List.append_nil]
  | cons op ops ih =>
    rw [List.foldlM_cons] at hrun
    obtain ⟨next, hstep, hrun⟩ := bind_eq_ok.mp hrun
    obtain ⟨name, hservice, hadd⟩ := bind_eq_ok.mp hstep
    obtain ⟨-, rfl⟩ := serviceOf_eq_ok.mp hservice
    rw [← List.singleton_append, ← List.append_assoc]
    exact ih (h.add hadd) hrun

theorem partition_ofOperations (h : ofOperations t ops = .ok groups) : groups.Partition t ops :=
  partition_foldlM (partition_nil t) h

/-- No operation is refused. -/
def Faultless (t : MappingTable) (ops : List Operation) : Prop :=
  ∀ before op after, ops = before ++ op :: after → ∀ e, ¬Fault t before op e

/-- A run ends at the first operation at fault, after a run over those before it. -/
theorem ofOperations_stops_iff : ofOperations t ops = .error e ↔ ∃ before op after groups,
    ops = before ++ op :: after ∧ ofOperations t before = .ok groups ∧ Fault t before op e := by
  rw [ofOperations, foldlM_eq_error]
  constructor
  · rintro ⟨before, op, after, groups, rfl, hbefore, hstep⟩
    have hfault := (step_eq_error (partition_ofOperations hbefore)).mp hstep
    exact ⟨before, op, after, groups, rfl, hbefore, hfault⟩
  · rintro ⟨before, op, after, groups, rfl, hbefore, hfault⟩
    have hstep := (step_eq_error (partition_ofOperations hbefore)).mpr hfault
    exact ⟨before, op, after, groups, rfl, hbefore, hstep⟩

/-- A run succeeds if it meets no fault. -/
theorem exists_ofOperations_iff : (∃ groups, ofOperations t ops = .ok groups) ↔ Faultless t ops := by
  constructor
  · rintro ⟨groups, hok⟩ before op after rfl e hfault
    have hbefore : ∃ groups, ofOperations t before = .ok groups := by
      rw [ofOperations, List.foldlM_append] at hok
      obtain ⟨next, hnext, -⟩ := bind_eq_ok.mp hok
      exact ⟨next, hnext⟩
    obtain ⟨next, hnext⟩ := hbefore
    have hstop := ofOperations_stops_iff.mpr ⟨before, op, after, next, rfl, hnext, hfault⟩
    cases hok.symm.trans hstop
  · intro h
    cases hrun : ofOperations t ops with
    | ok groups => exact ⟨groups, rfl⟩
    | error e =>
      obtain ⟨before, op, after, -, he, -, hfault⟩ := ofOperations_stops_iff.mp hrun
      exact (h before op after he e hfault).elim

theorem ofOperations_eq_error : ofOperations t ops = .error e ↔ ∃ before op after,
    ops = before ++ op :: after ∧ Faultless t before ∧ Fault t before op e := by
  simp only [ofOperations_stops_iff, ← exists_ofOperations_iff]
  constructor
  · rintro ⟨before, op, after, groups, he, hbefore, hfault⟩
    exact ⟨before, op, after, he, ⟨groups, hbefore⟩, hfault⟩
  · rintro ⟨before, op, after, he, ⟨groups, hbefore⟩, hfault⟩
    exact ⟨before, op, after, groups, he, hbefore, hfault⟩

theorem Fault.of_not_named (h : ¬Named t op) : ∃ e, Fault t before op e := by
  simp only [Named, not_forall, not_exists, not_and] at h
  obtain ⟨service, hs, h⟩ := h
  cases hc : Identifier.firstKept? service with
  | none => exact ⟨_, .empty hs hc⟩
  | some c => exact ⟨_, .digit hs hc (h c hc)⟩

theorem Fault.cases (h : Fault t before op e) : ¬Named t op ∨
    ∃ first ∈ before, groupName t first = groupName t op ∧ first.id = op.id := by
  cases h with
  | empty hs hnone =>
    refine .inl fun hnamed => ?_
    obtain ⟨c, hc, -⟩ := hnamed _ hs
    simp [hnone] at hc
  | digit hs hc hletter =>
    refine .inl fun hnamed => ?_
    obtain ⟨c', hc', hletter'⟩ := hnamed _ hs
    cases hc.symm.trans hc'
    exact hletter hletter'
  | duplicate _ hfirst hgroup hid => exact .inr ⟨_, hfirst, hgroup, hid⟩

theorem exists_error_iff : (∃ e, ofOperations t ops = .error e) ↔ (∃ op ∈ ops, ¬Named t op) ∨
    ∃ first second, [first, second].Sublist ops ∧ groupName t first = groupName t second ∧
      first.id = second.id := by
  constructor
  · rintro ⟨e, he⟩
    obtain ⟨before, op, after, rfl, -, hfault⟩ := ofOperations_eq_error.mp he
    rcases hfault.cases with hnamed | ⟨first, hfirst, hgroup, hid⟩
    · exact .inl ⟨op, by simp, hnamed⟩
    · refine .inr ⟨first, op, ?_, hgroup, hid⟩
      exact (List.singleton_sublist.mpr hfirst).append (List.singleton_sublist.mpr List.mem_cons_self)
  · intro h
    have hfault : ¬Faultless t ops := by
      rcases h with ⟨op, hop, hnamed⟩ | ⟨first, second, hpair, hgroup, hid⟩
      · obtain ⟨before, after, rfl⟩ := List.append_of_mem hop
        obtain ⟨e, he⟩ := Fault.of_not_named hnamed
        exact fun h => h before op after rfl e he
      · obtain ⟨before, rest, rfl, hfirst, hsecond⟩ := List.cons_sublist_iff.mp hpair
        obtain ⟨between, after, rfl⟩ := List.append_of_mem (List.singleton_sublist.mp hsecond)
        rw [← List.append_assoc]
        intro h
        by_cases hnamed : Named t second
        · exact h _ second after rfl _ (.duplicate hnamed (List.mem_append_left _ hfirst) hgroup hid)
        · obtain ⟨e, he⟩ := Fault.of_not_named hnamed
          exact h _ second after rfl e he
    cases hrun : ofOperations t ops with
    | error e => exact ⟨e, rfl⟩
    | ok groups => exact (hfault (exists_ofOperations_iff.mp ⟨groups, hrun⟩)).elim

/-- Operations are in one group each. -/
theorem Partition.exists_unique (h : groups.Partition t ops) {op : Operation} (hop : op ∈ ops) :
    ∃! g, g ∈ groups ∧ op ∈ g.2 := by
  obtain ⟨g, hg, hname⟩ := List.mem_map.mp (h.covered op hop)
  refine ⟨g, ⟨hg, ?_⟩, ?_⟩
  · rw [(h.operations g hg).2]
    exact List.mem_filter.mpr ⟨hop, by simpa using hname.symm⟩
  · rintro g' ⟨hg', hop'⟩
    rw [(h.operations g' hg').2] at hop'
    have hname' : groupName t op = g'.1 := by simpa using (List.mem_filter.mp hop').2
    exact List.inj_on_of_nodup_map h.services hg' hg (hname'.symm.trans hname.symm)

/-- Grouping parts the operations by their services and keeps their order, and it fails only for a service
that cannot be used or an identifier that is repeated, whichever comes first. -/
theorem ofOperations_partition (t : MappingTable) (ops : List Operation) :
    (∀ groups, ofOperations t ops = .ok groups → groups.Partition t ops ∧ groups.members.Perm ops ∧
      ∀ op ∈ ops, ∃! g, g ∈ groups ∧ op ∈ g.2) ∧
    ((∃ e, ofOperations t ops = .error e) ↔ (∃ op ∈ ops, ¬Named t op) ∨
      ∃ first second, [first, second].Sublist ops ∧ groupName t first = groupName t second ∧
        first.id = second.id) ∧
    ∀ e, ofOperations t ops = .error e ↔ ∃ before op after, ops = before ++ op :: after ∧
      Faultless t before ∧ Fault t before op e := by
  refine ⟨fun groups h => ?_, exists_error_iff, fun e => ofOperations_eq_error⟩
  have hp := partition_ofOperations h
  exact ⟨hp, members_ofOperations h, fun op => hp.exists_unique⟩

/-- Two operations for the service `petStore`, one for `default`, and one that is given no service. -/
def clinic : MappingTable :=
  ⟨[("listPets", .service "pet store" "list"), ("list", .service "default" "list"),
    ("getPet", .service "pet-Store" "get"), ("allPets", .service "petStore" "list")], []⟩

def called (extractedId id : String) : Operation := { getter "Pet" with id, extractedId }

/-- Services that are written differently are one group if the same is left of them, and one operation too
many is refused for the identifier of the first. -/
theorem ofOperations_partition_clinic :
    (∃ groups, ofOperations clinic
        [called "listPets" "list", called "ping" "ping", called "list" "list", called "getPet" "get"] =
          .ok groups ∧
      groups.map (fun g => (g.1, g.2.map (·.extractedId))) =
        [("petStore", ["listPets", "getPet"]), ("default", ["ping", "list"])] ∧
      groups.Partition clinic
        [called "listPets" "list", called "ping" "ping", called "list" "list", called "getPet" "get"]) ∧
    ∃ before op after, [called "listPets" "list", called "allPets" "list", called "ping" "ping"] =
        before ++ op :: after ∧ Faultless clinic before ∧
      Fault clinic before op (.duplicateMethod "petStore" "list" "listPets" "allPets") := by
  refine ⟨⟨_, rfl, rfl, ((ofOperations_partition clinic _).1 _ rfl).1⟩, ?_⟩
  exact ((ofOperations_partition clinic _).2.2 _).mp rfl

end Groups
end ClientGen
