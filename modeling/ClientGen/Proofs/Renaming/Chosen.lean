import ClientGen.Proofs.Grouping.Partition
import ClientGen.Proofs.Renaming.Identifiers
import ClientGen.Proofs.Renaming.Neutral

/-! The names that a table chooses, and those that are repaired for want of a choice: what becomes of either,
and what a run over the records stops at. -/
namespace ClientGen
open Api (Operation SchemaRecord)

theorem pair_sublist {α : Type} {a b : α} {before after : List α} (ha : a ∈ before) :
    [a, b].Sublist (before ++ b :: after) :=
  (List.singleton_sublist.mpr ha).append (List.singleton_sublist.mpr List.mem_cons_self)

namespace Identifier
variable {subject value name : String} {e : MappingError}

/-- The text has no letter or digit, or a digit is the first of them. -/
def Unusable (value : String) : Prop := ∀ c ∈ firstKept? value, c.isDigit

/-- What is said of a chosen name that cannot be used. -/
inductive Refused (subject value : String) : MappingError → Prop
  | empty : firstKept? value = none → Refused subject value (.emptyIdentifier subject value)
  | digit {c : Char} : firstKept? value = some c → c.isDigit →
    Refused subject value (.invalidIdentifier subject value)

theorem Refused.unusable (h : Refused subject value e) : Unusable value := by
  cases h with
  | empty hnone => simp [Unusable, hnone]
  | digit hc hdigit => simpa [Unusable, hc] using hdigit

theorem Unusable.refused (h : Unusable value) (subject : String) : ∃ e, Refused subject value e := by
  cases hc : firstKept? value with
  | none => exact ⟨_, .empty hc⟩
  | some c => exact ⟨_, .digit hc (h c hc)⟩

theorem checked_eq_error : checked subject value = .error e ↔ Refused subject value e := by
  rw [checked_eq]
  cases hc : firstKept? value with
  | none =>
    constructor
    · rintro ⟨⟩
      exact .empty hc
    · intro h
      cases h with
      | empty => rfl
      | digit hc' => cases hc.symm.trans hc'
  | some c =>
    have halpha : c.isAlpha = !c.isDigit := (isDigit_toUpper (List.find?_some hc)).2.symm
    dsimp only
    rw [halpha]
    constructor
    · intro h
      cases hdigit : c.isDigit with
      | false => simp [hdigit] at h
      | true =>
        rw [hdigit] at h
        cases h
        exact .digit hc hdigit
    · intro h
      cases h with
      | empty hnone => cases hc.symm.trans hnone
      | digit hc' hdigit =>
        cases hc.symm.trans hc'
        simp [hdigit]

theorem checked_eq_ok (h : checked subject value = .ok name) : ¬Unusable value ∧ name = sanitize value := by
  constructor
  · intro hu
    obtain ⟨e, he⟩ := hu.refused subject
    cases h.symm.trans (checked_eq_error.mpr he)
  · rw [checked_eq] at h
    split at h
    · cases h
    · split at h
      · cases h
        rfl
      · cases h

end Identifier

namespace Renaming
variable {t : MappingTable} {schemas rest : List SchemaRecord} {s first second : SchemaRecord}
  {r r' : Renaming} {used : List String} {e : MappingError} {a name : String}

/-- The name that the table chooses for a schema, as an identifier. -/
def chosenName? (t : MappingTable) (s : SchemaRecord) : Option String :=
  (target? t s).map Identifier.sanitize

/-- The chosen names, each with the schema that claims it. -/
def claims (t : MappingTable) (schemas : List SchemaRecord) : Entries String String :=
  schemas.filterMap fun s => (chosenName? t s).map (·, s.declaredName)

theorem mem_claims : (name, a) ∈ claims t schemas ↔
    ∃ s ∈ schemas, chosenName? t s = some name ∧ s.declaredName = a := by
  simp [claims]

theorem keys_claims (t : MappingTable) (schemas : List SchemaRecord) :
    (claims t schemas).keys = schemas.filterMap (chosenName? t) := by
  rw [claims, Entries.keys, List.map_filterMap]
  simp [Option.map_map, Function.comp_def]

/-! ### The chosen names -/

/-- One schema is refused, and those before it are not. -/
theorem choose_eq_error (h : choose t rest r = .error e) : ∃ before s after target,
    rest = before ++ s :: after ∧ target? t s = some target ∧
      (Identifier.Refused s.declaredName target e ∨
        ∃ first, (Identifier.sanitize target, first) ∈ r.claimed ++ claims t before ∧
          e = .duplicateSchema (Identifier.sanitize target) first s.declaredName) := by
  induction rest generalizing r with
  | nil => cases h
  | cons s rest ih =>
    rw [choose] at h
    cases ht : target? t s with
    | none =>
      obtain ⟨before, s', after, target, rfl, ht', hs'⟩ := ih (by simpa only [ht] using h)
      have hclaims : claims t (s :: before) = claims t before := by
        simp [claims, chosenName?, ht]
      exact ⟨s :: before, s', after, target, rfl, ht', hclaims ▸ hs'⟩
    | some target =>
      simp only [ht] at h
      rcases bind_eq_error.mp h with hrefused | ⟨name, hname, h⟩
      · exact ⟨[], s, rest, target, rfl, ht, .inl (Identifier.checked_eq_error.mp hrefused)⟩
      · obtain ⟨-, rfl⟩ := Identifier.checked_eq_ok hname
        cases hc : Entries.get? r.claimed (Identifier.sanitize target) with
        | some first =>
          simp only [hc] at h
          cases h
          exact ⟨[], s, rest, target, rfl, ht, .inr ⟨first, by simpa [claims] using Entries.mem_of_get? hc, rfl⟩⟩
        | none =>
          obtain ⟨before, s', after, target', rfl, ht', hs'⟩ := ih (by simpa only [hc] using h)
          refine ⟨s :: before, s', after, target', rfl, ht', ?_⟩
          rw [Entries.put_of_not_mem (Entries.get?_eq_none_iff.mp hc)] at hs'
          simpa [claims, chosenName?, ht] using hs'

/-- When the first loop goes through, every chosen name can be used and is claimed once. -/
structure Claimed (t : MappingTable) (rest : List SchemaRecord) (r r' : Renaming) : Prop where
  usable : ∀ s ∈ rest, ∀ target ∈ target? t s, ¬Identifier.Unusable target
  claimed : r'.claimed = r.claimed ++ claims t rest
  nodup : r.claimed.keys.Nodup → r'.claimed.keys.Nodup
  names : ∀ a, a ∈ r'.names.keys ↔ a ∈ r.names.keys ∨ ∃ s ∈ rest, s.name = a ∧ target? t s ≠ none

theorem claimed_choose (h : choose t rest r = .ok r') : Claimed t rest r r' := by
  induction rest generalizing r with
  | nil =>
    cases h
    exact ⟨by simp, by simp [claims], id, by simp⟩
  | cons s rest ih =>
    rcases choose_cons h with ⟨ht, h⟩ | ⟨target, name, ht, hname, hfree, h⟩
    · obtain ⟨husable, hclaimed, hnodup, hnames⟩ := ih h
      refine ⟨?_, ?_, hnodup, ?_⟩
      · simpa [ht] using husable
      · simpa [claims, chosenName?, ht] using hclaimed
      · simpa [ht] using hnames
    · obtain ⟨hus, rfl⟩ := Identifier.checked_eq_ok hname
      obtain ⟨husable, hclaimed, hnodup, hnames⟩ := ih h
      refine ⟨?_, ?_, fun hr => hnodup (Entries.nodup_keys_put hr), fun a => ?_⟩
      · simpa [ht, hus] using husable
      · rw [hclaimed, Entries.put_of_not_mem hfree]
        simp [claims, chosenName?, ht]
      · rw [hnames, Entries.mem_keys_put]
        simp [ht, @eq_comm _ a, or_assoc, or_left_comm]

/-! ### The repaired names -/

theorem repair_eq_error (h : repair rest used r = .error e) : ∃ s ∈ rest, s.name ∉ r.names.keys ∧
    ∃ first, (Identifier.repaired s.declaredName "Schema", first) ∈ r.claimed ∧
      e = .duplicateSchema (Identifier.repaired s.declaredName "Schema") first s.declaredName := by
  induction rest generalizing r used with
  | nil => cases h
  | cons s rest ih =>
    rw [repair] at h
    by_cases hs : Entries.has r.names s.name
    · rw [if_pos hs] at h
      obtain ⟨s', hs', hfault⟩ := ih h
      exact ⟨s', List.mem_cons_of_mem _ hs', hfault⟩
    · rw [if_neg hs] at h
      dsimp only at h
      have hfree : s.name ∉ r.names.keys := fun hmem => hs (Entries.has_eq_true_iff.mpr hmem)
      cases hc : Entries.get? r.claimed (Identifier.repaired s.declaredName "Schema") with
      | some first =>
        simp only [hc] at h
        cases h
        exact ⟨s, List.mem_cons_self, hfree, first, Entries.mem_of_get? hc, rfl⟩
      | none =>
        simp only [hc] at h
        obtain ⟨s', hs', hnew, hfault⟩ := ih h
        exact ⟨s', List.mem_cons_of_mem _ hs', fun hmem => hnew (Entries.mem_keys_put.mpr (.inr hmem)), hfault⟩

/-- When the second loop goes through, no name that it repairs is claimed. -/
theorem not_claimed_of_repair (h : repair rest used r = .ok r') (hd : (rest.map (·.name)).Nodup) :
    ∀ s ∈ rest, s.name ∉ r.names.keys → Identifier.repaired s.declaredName "Schema" ∉ r.claimed.keys := by
  induction rest generalizing r used with
  | nil => exact fun _ h => nomatch h
  | cons s rest ih =>
    obtain ⟨hs, hd⟩ := List.nodup_cons.mp hd
    rcases repair_cons h with ⟨hin, h⟩ | ⟨name, hout, hbase, -, h⟩
    · exact List.forall_mem_cons.mpr ⟨fun hout => (hout hin).elim, ih h hd⟩
    · refine List.forall_mem_cons.mpr ⟨fun _ => hbase, fun s' hs' hout' => ih h hd s' hs' fun hmem => ?_⟩
      rcases Entries.mem_keys_put.mp hmem with he | hmem
      · exact hs (List.mem_map.mpr ⟨s', hs', he⟩)
      · exact hout' hmem

end Renaming

namespace Api
variable {t : MappingTable} {op : Operation} {ops : List Operation} {r : Renaming} {used ids : List String}
  {e : MappingError}

/-- The method that the table chooses for an operation, unless it is the extracted identifier. -/
def chosenMethod? (t : MappingTable) (op : Operation) : Option String :=
  ((t.operation op.extractedId).map OperationMapping.methodName).filter (· ≠ op.extractedId)

/-- The identifiers of the operations that the table chooses none for. -/
def repairedIds (t : MappingTable) (ops : List Operation) : List String :=
  (ops.filter fun op => (chosenMethod? t op).isNone).map (·.id)

/-- What has been done with an operation, if the run went on. -/
theorem renamedIds_cons (h : renamedIds t (op :: ops) used = .ok ids) : ∃ id rest, ids = id :: rest ∧
    ((∃ method, chosenMethod? t op = some method ∧ Identifier.checked op.extractedId method = .ok id ∧
        renamedIds t ops used = .ok rest) ∨
      (chosenMethod? t op = none ∧ id = op.repairedId used ∧ renamedIds t ops (id :: used) = .ok rest)) := by
  rw [renamedIds] at h
  cases hm : chosenMethod? t op with
  | none =>
    rw [chosenMethod?] at hm
    simp only [hm, bind_eq_ok, pure_eq_ok] at h
    obtain ⟨rest, hrest, rfl⟩ := h
    exact ⟨_, rest, rfl, .inr ⟨rfl, rfl, hrest⟩⟩
  | some method =>
    rw [chosenMethod?] at hm
    simp only [hm, bind_eq_ok, pure_eq_ok] at h
    obtain ⟨id, hid, rest, hrest, rfl⟩ := h
    exact ⟨id, rest, rfl, .inl ⟨method, rfl, hid, hrest⟩⟩

/-- Only a chosen method is refused. -/
theorem renamedIds_eq_error (h : renamedIds t ops used = .error e) : ∃ op ∈ ops, ∃ method,
    chosenMethod? t op = some method ∧ Identifier.Refused op.extractedId method e := by
  induction ops generalizing used with
  | nil => cases h
  | cons op ops ih =>
    rw [renamedIds] at h
    cases hm : chosenMethod? t op with
    | none =>
      rw [chosenMethod?] at hm
      simp only [hm] at h
      rcases bind_eq_error.mp h with h | ⟨_, -, h⟩
      · obtain ⟨op', hop', hfault⟩ := ih h
        exact ⟨op', List.mem_cons_of_mem _ hop', hfault⟩
      · cases h
    | some method =>
      have hmethod := hm
      rw [chosenMethod?] at hm
      simp only [hm] at h
      rcases bind_eq_error.mp h with h | ⟨_, -, h⟩
      · exact ⟨op, List.mem_cons_self, method, hmethod, Identifier.checked_eq_error.mp h⟩
      · rcases bind_eq_error.mp h with h | ⟨_, -, h⟩
        · obtain ⟨op', hop', hfault⟩ := ih h
          exact ⟨op', List.mem_cons_of_mem _ hop', hfault⟩
        · cases h

theorem usable_renamedIds (h : renamedIds t ops used = .ok ids) :
    ∀ op ∈ ops, ∀ method ∈ chosenMethod? t op, ¬Identifier.Unusable method := by
  induction ops generalizing used ids with
  | nil => exact fun _ h => nomatch h
  | cons op ops ih =>
    obtain ⟨id, rest, -, ⟨method, hm, hid, h⟩ | ⟨hm, -, h⟩⟩ := renamedIds_cons h
    · exact List.forall_mem_cons.mpr ⟨by simpa [hm] using (Identifier.checked_eq_ok hid).1, ih h⟩
    · exact List.forall_mem_cons.mpr ⟨by simp [hm], ih h⟩

/-- How operations get their identifiers, where those in `used` are taken: a chosen one counts as it is, and
any other is repaired and, if need be, numbered among those that are repaired. -/
structure Identified (t : MappingTable) (used : List String) (ops : List Operation) : Prop where
  chosen : ∀ op ∈ ops, ∀ method ∈ chosenMethod? t op,
    ¬Identifier.Unusable method ∧ op.id = Identifier.sanitize method
  repaired : ∀ before op after, ops = before ++ op :: after → chosenMethod? t op = none →
    op.id = op.repairedId ((repairedIds t before).reverse ++ used)
  apart : Identifier.Apart used (repairedIds t ops)
  words : ∀ op ∈ ops, Identifier.IsWord op.id

theorem identified_nil (t : MappingTable) (used : List String) : Identified t used [] where
  chosen _ h := nomatch h
  repaired _ _ _ h := absurd h.symm (by simp)
  apart := Identifier.apart_nil used
  words _ h := nomatch h

theorem repairedIds_cons_of_some {method : String} (h : chosenMethod? t op = some method) :
    repairedIds t (op :: ops) = repairedIds t ops := by simp [repairedIds, h]

theorem repairedIds_cons_of_none (h : chosenMethod? t op = none) :
    repairedIds t (op :: ops) = op.id :: repairedIds t ops := by simp [repairedIds, h]

/-- A chosen identifier does not count as used. -/
theorem Identified.cons_chosen {method : String} (op : Operation) (h : Identified t used ops)
    (hm : chosenMethod? t op = some method)
    (hid : Identifier.checked op.extractedId method = .ok op.id) : Identified t used (op :: ops) := by
  obtain ⟨hchosen, hrepaired, hapart, hwords⟩ := h
  obtain ⟨husable, hname⟩ := Identifier.checked_eq_ok hid
  refine ⟨List.forall_mem_cons.mpr ⟨?_, hchosen⟩, fun before op' after he hnone => ?_, ?_,
    List.forall_mem_cons.mpr ⟨Identifier.isWord_checked hid, hwords⟩⟩
  · rw [hm]
    rintro _ ⟨⟩
    exact ⟨husable, hname⟩
  · cases before with
    | nil =>
      cases he
      cases hnone.symm.trans hm
    | cons first before =>
      cases he
      rw [repairedIds_cons_of_some hm]
      exact hrepaired before op' after rfl hnone
  · rwa [repairedIds_cons_of_some hm]

/-- A repaired one does. -/
theorem Identified.cons_repaired (op : Operation) (h : Identified t (op.id :: used) ops)
    (hm : chosenMethod? t op = none) (hid : op.id = op.repairedId used) : Identified t used (op :: ops) := by
  obtain ⟨hchosen, hrepaired, hapart, hwords⟩ := h
  have hfiller : Identifier.IsWord "op" := ⟨⟨'o', by decide, by decide⟩, List.all_eq_true.mp (by decide)⟩
  have hword : Identifier.IsWord (op.repairedId used) :=
    Identifier.isWord_fresh (Identifier.isWord_repaired hfiller op.extractedId) used
  refine ⟨List.forall_mem_cons.mpr ⟨?_, hchosen⟩, fun before op' after he hnone => ?_, ?_,
    List.forall_mem_cons.mpr ⟨hid ▸ hword, hwords⟩⟩
  · simp [hm]
  · cases before with
    | nil =>
      cases he
      exact hid
    | cons first before =>
      cases he
      rw [repairedIds_cons_of_none hm, List.reverse_cons, List.append_assoc]
      exact hrepaired before op' after rfl hnone
  · rw [repairedIds_cons_of_none hm]
    have hfree : op.id ∉ used := hid ▸ Identifier.fresh_not_mem used _
    exact hapart.cons_of_not_mem hfree fun a => by rw [List.mem_cons, or_comm]

theorem identified_renamedIds (h : renamedIds t ops used = .ok ids) :
    Identified t used (renamedOperations r ops ids) := by
  induction ops generalizing used ids with
  | nil =>
    cases h
    exact identified_nil t used
  | cons op ops ih =>
    obtain ⟨id, rest, rfl, ⟨method, hm, hid, h⟩ | ⟨hm, hid, h⟩⟩ := renamedIds_cons h
    · exact (ih h).cons_chosen (op.renamed r.apply id) hm hid
    · exact Identified.cons_repaired (op.renamed r.apply id) (ih h) hm hid

end Api

end ClientGen
