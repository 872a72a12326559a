import ClientGen.Api.Extract
import ClientGen.Proofs.Renaming.Refusal

/-! Names that are made up by a number after a repaired one. Among schemas such a name meets no other; among
operations it may meet a method that the table chooses, and nothing else. -/
namespace ClientGen
open Api (Operation SchemaRecord)

namespace Api
variable {t : MappingTable} {op first second : Operation} {ops before after : List Operation}
  {used : List String}

/-- The identifier that the table chooses for an operation. -/
def chosenId? (t : MappingTable) (op : Operation) : Option String :=
  (chosenMethod? t op).map Identifier.sanitize

/-- The identifier is made up by a number after the repaired one. -/
def Numbered (t : MappingTable) (op : Operation) : Prop :=
  chosenMethod? t op = none ∧ ∃ n, 2 ≤ n ∧ op.id = Identifier.repaired op.extractedId "op" ++ toString n

/-- Two operations have one identifier, which the table chooses for at least one of them. -/
structure ChosenClash (t : MappingTable) (ops : List Operation) (first second : Operation) : Prop where
  pair : [first, second].Sublist ops
  same : first.id = second.id
  chosen : chosenId? t first = some first.id ∨ chosenId? t second = some second.id

/-- An operation that the table chooses no method for: its identifier is the repaired one, or made up because
that is taken by one before it; and another operation has it exactly if the table chooses it. -/
structure Unchosen (t : MappingTable) (before : List Operation) (op : Operation) (after : List Operation) :
    Prop where
  numbered : op.id = Identifier.repaired op.extractedId "op" ∨
    Numbered t op ∧ Identifier.repaired op.extractedId "op" ∈ repairedIds t before
  met : op.id ∈ (before ++ after).map (·.id) ↔ ∃ other ∈ before ++ after, chosenId? t other = some op.id

theorem Identified.chosenId?_eq (h : Identified t used ops) (hop : op ∈ ops) :
    chosenMethod? t op = none ∨ chosenId? t op = some op.id := by
  cases hm : chosenMethod? t op with
  | none => exact .inl rfl
  | some method => exact .inr (by rw [chosenId?, hm, (h.chosen op hop method hm).2, Option.map_some])

/-- What is repaired is distinct, so one of two operations with one identifier is chosen. -/
theorem Identified.chosenClash (h : Identified t used ops) (hpair : [first, second].Sublist ops)
    (hsame : first.id = second.id) : ChosenClash t ops first second := by
  refine ⟨hpair, hsame, ?_⟩
  have hin : first ∈ ops ∧ second ∈ ops := by simpa using hpair.subset
  rcases h.chosenId?_eq hin.1 with hfirst | hfirst
  · rcases h.chosenId?_eq hin.2 with hsecond | hsecond
    · -- both are repaired, but repaired identifiers are apart
      have htwice := (hpair.filter fun op => (chosenMethod? t op).isNone).map (·.id)
      have hdistinct := h.apart.1.sublist htwice
      simp [hfirst, hsecond, hsame] at hdistinct
    · exact .inr hsecond
  · exact .inl hfirst

/-- A number is made up only where the repaired identifier is taken. -/
theorem Identified.numbered (h : Identified t [] (before ++ op :: after)) (hnone : chosenMethod? t op = none) :
    op.id = Identifier.repaired op.extractedId "op" ∨
      Numbered t op ∧ Identifier.repaired op.extractedId "op" ∈ repairedIds t before := by
  have hfresh := Identifier.isFresh_fresh (repairedIds t before).reverse
    (Identifier.repaired op.extractedId "op")
  rw [← Operation.repairedId, ← List.append_nil (List.reverse _), ← h.repaired before op after rfl hnone,
    List.append_nil, Identifier.IsFresh] at hfresh
  split at hfresh
  · rename_i htaken
    obtain ⟨n, hn, -, he, -⟩ := hfresh
    exact .inr ⟨⟨hnone, n, hn, he⟩, List.mem_reverse.mp htaken⟩
  · exact .inl hfresh

/-- Beside an operation whose identifier is not chosen, another has it exactly if it is chosen there. -/
theorem Identified.id_eq_iff (h : Identified t used (before ++ op :: after))
    (hnone : chosenMethod? t op = none) {other : Operation} (hother : other ∈ before ++ after) :
    other.id = op.id ↔ chosenId? t other = some op.id := by
  have hop : chosenId? t op = none := by rw [chosenId?, hnone, Option.map_none]
  constructor
  · intro hid
    rcases List.mem_append.mp hother with hbefore | hafter
    · rcases (h.chosenClash (pair_sublist hbefore) hid).chosen with hchosen | hself
      · rw [hchosen, hid]
      · cases hop.symm.trans hself
    · have hpair : [op, other].Sublist (before ++ op :: after) :=
        ((List.singleton_sublist.mpr hafter).cons_cons op).trans (List.sublist_append_right before _)
      rcases (h.chosenClash hpair hid.symm).chosen with hself | hchosen
      · cases hop.symm.trans hself
      · rw [hchosen, hid]
  · intro hid
    have hall : other ∈ before ++ op :: after := by
      rw [List.mem_append, List.mem_cons]
      exact (List.mem_append.mp hother).imp_right .inr
    rcases h.chosenId?_eq hall with hnone' | hsome
    · simp [chosenId?, hnone'] at hid
    · exact Option.some.inj (hsome.symm.trans hid)

theorem Identified.unchosen (h : Identified t [] (before ++ op :: after)) (hnone : chosenMethod? t op = none) :
    Unchosen t before op after where
  numbered := h.numbered hnone
  met := by
    rw [List.mem_map]
    exact exists_congr fun other => and_congr_right fun hother => h.id_eq_iff hnone hother

end Api

namespace Model
variable {m : Model} {seen ops : List Operation} {first second : Operation} {e : MappingError}

theorem repeatedId?_eq_some (h : repeatedId? seen ops = some (first, second)) :
    [first, second].Sublist (seen.reverse ++ ops) ∧ first.id = second.id := by
  induction ops generalizing seen with
  | nil => cases h
  | cons op ops ih =>
    rw [repeatedId?] at h
    split at h
    · rename_i found hfound
      cases h
      exact ⟨pair_sublist (List.mem_reverse.mpr (List.mem_of_find?_eq_some hfound)),
        by simpa using List.find?_some hfound⟩
    · simpa using ih h

/-- One client refuses two operations with one identifier, and nothing else. -/
theorem flatOperations_eq_error (h : m.flatOperations = .error e) : ∃ first second : Operation,
    [first, second].Sublist m.operations ∧ first.id = second.id ∧
      e = .duplicateMethod "client" second.id first.extractedId second.extractedId := by
  rw [flatOperations] at h
  split at h
  · rename_i first second hrepeated
    obtain ⟨hpair, hsame⟩ := repeatedId?_eq_some hrepeated
    cases h
    exact ⟨first, second, hpair, hsame, rfl⟩
  · cases h

end Model

namespace Groups
variable {t : MappingTable} {ops before : List Operation} {op : Operation} {e : MappingError}

theorem refused_or_same_of_fault (h : Fault t before op e) :
    (∃ service, Identifier.Refused op.extractedId service e) ∨
    ∃ first ∈ before, first.id = op.id ∧
      e = .duplicateMethod (groupName t op) op.id first.extractedId op.extractedId := by
  cases h with
  | empty _ hnone => exact .inl ⟨_, .empty hnone⟩
  | digit _ hc hletter =>
    have halpha := (Identifier.isDigit_toUpper (List.find?_some hc)).2
    exact .inl ⟨_, .digit hc (by simpa [← halpha] using hletter)⟩
  | duplicate _ hfirst _ hid => exact .inr ⟨_, hfirst, hid, rfl⟩

end Groups

namespace Api
variable {api : Api} {t : MappingTable} {mode : FingerprintMode} {ops : List Operation}
  {schemas : List SchemaRecord} {e : MappingError}

/-- Once the table is applied, only grouping can fail. -/
theorem prepare_eq_error (happly : t.apply api.operations api.schemas = .ok (ops, schemas)) :
    api.prepare (some t) mode = .error e ↔ Groups.ofOperations t ops = .error e := by
  rw [prepare, model, happly, ok_bind]
  dsimp only
  cases Groups.ofOperations t ops with
  | error e' => simp [Except.map]
  | ok groups => simp [Except.map, pure, Except.pure]

/-- Made-up names never meet one another. Schemas do not even meet chosen names; an operation does exactly if
the table chooses what was made up for it, and all that is reported of two operations with one identifier is
reported of one that is chosen. -/
theorem clash_only_chosen (mode : FingerprintMode) (hd : (api.schemas.map (·.name)).Nodup)
    (happly : t.apply api.operations api.schemas = .ok (ops, schemas)) :
    (schemas.map (·.name)).Nodup ∧
    (∀ before op after, ops = before ++ op :: after → chosenMethod? t op = none → Unchosen t before op after) ∧
    (∀ first second, [first, second].Sublist ops → first.id = second.id → ChosenClash t ops first second) ∧
    (∀ e, api.prepare (some t) mode = .error e →
      (∃ op ∈ ops, ∃ service, Identifier.Refused op.extractedId service e) ∨
      ∃ first second service, ChosenClash t ops first second ∧
        e = .duplicateMethod service second.id first.extractedId second.extractedId) ∧
    ∀ m, api.prepare (some t) mode = .ok (.ready m) → ∀ e, m.flatOperations = .error e →
      ∃ first second, ChosenClash t ops first second ∧
        e = .duplicateMethod "client" second.id first.extractedId second.extractedId := by
  obtain ⟨r, ids, hr, hi, hops, hschemas⟩ := MappingTable.apply_eq_ok.mp happly
  have hids : Identified t [] ops := hops ▸ identified_renamedIds hi
  refine ⟨hschemas ▸ nodup_names_rename hr hd, ?_, fun _ _ => hids.chosenClash, fun e he => ?_,
    fun m hm e he => ?_⟩
  · rintro before op after rfl hnone
    exact hids.unchosen hnone
  · obtain ⟨before, op, after, rfl, -, hfault⟩ :=
      Groups.ofOperations_eq_error.mp ((prepare_eq_error happly).mp he)
    rcases Groups.refused_or_same_of_fault hfault with ⟨service, hrefused⟩ | ⟨first, hfirst, hid, rfl⟩
    · exact .inl ⟨op, by simp, service, hrefused⟩
    · exact .inr ⟨first, op, _, hids.chosenClash (pair_sublist hfirst) hid, rfl⟩
  · obtain ⟨-, hm, -, -⟩ := prepare_eq_ready hm
    cases happly.symm.trans hm
    obtain ⟨first, second, hpair, hid, rfl⟩ := Model.flatOperations_eq_error he
    exact ⟨first, second, hids.chosenClash hpair hid, rfl⟩

/-- Two operations that are repaired alike, and a third. -/
def listing : Document :=
  let operation (id : String) : Document.Operation := ⟨some id, none, none, false, [], none, []⟩
  let item : Document.PathItem := ⟨[], none, none, none, none, none, none, none, none⟩
  { openapi := "3.1.0"
    info := ⟨"Listing", none, "1"⟩
    servers := []
    paths := [("/a", { item with get := some (operation "list-pets") }),
      ("/b", { item with get := some (operation "listPets") }),
      ("/c", { item with get := some (operation "all") })]
    components := none }

/-- Chooses a method for the third operation. -/
def choosing (method : String) : MappingTable := ⟨[("all", .method method)], []⟩

/-- A method with a number that nothing was given meets nothing. -/
theorem clash_only_chosen_listPets3 : (listing.extract.schemas.map (·.name)).Nodup ∧ ∃ ops schemas,
    (choosing "listPets3").apply listing.extract.operations listing.extract.schemas = .ok (ops, schemas) ∧
      ops.map (·.id) = ["listPets", "listPets2", "listPets3"] ∧
      ∀ before op after, ops = before ++ op :: after → chosenMethod? (choosing "listPets3") op = none →
        Unchosen (choosing "listPets3") before op after := by
  have hnames : (listing.extract.schemas.map (·.name)).Nodup := by decide
  obtain ⟨ops, schemas, happly, hids⟩ : ∃ ops schemas,
      (choosing "listPets3").apply listing.extract.operations listing.extract.schemas = .ok (ops, schemas) ∧
        ops.map (·.id) = ["listPets", "listPets2", "listPets3"] := ⟨_, _, rfl, by decide +kernel⟩
  exact ⟨hnames, ops, schemas, happly, hids, (clash_only_chosen .typed hnames happly).2.1⟩

/-- The number that is made up for the second operation is not kept apart from the method that is chosen for
the third, and the two are reported. -/
theorem listPets2_meets_chosen : ∃ ops schemas first second,
    (choosing "listPets2").apply listing.extract.operations listing.extract.schemas = .ok (ops, schemas) ∧
      [first, second].Sublist ops ∧ first.id = second.id ∧ Numbered (choosing "listPets2") first ∧
      listing.extract.prepare (some (choosing "listPets2")) .typed =
        .error (.duplicateMethod "default" "listPets2" "listPets" "all") := by
  refine ⟨_, _, _, _, rfl, List.sublist_cons_self _ _, ?_, ⟨?_, 2, Nat.le_refl 2, ?_⟩, rfl⟩
  · decide +kernel
  · decide +kernel
  · decide +kernel

end Api

end ClientGen
