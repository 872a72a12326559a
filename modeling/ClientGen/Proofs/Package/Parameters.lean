import ClientGen.Proofs.Extraction.Api
import ClientGen.Proofs.Extraction.Parameters
import ClientGen.Proofs.Literal.Lists
import ClientGen.Proofs.Package.Basic
import ClientGen.Proofs.Package.Member

/-! The parameters that a TypeScript method declares, and what it passes on of them. The parameters of a path
have distinct names there, but not always in the signature: identifiers tell only the words of a name. -/
namespace ClientGen
open Api (Operation)

/-! ### The names in a path -/

namespace Extract
variable {table : SchemaTable} {paths : Entries String Document.PathItem} {op : Operation}

theorem nodup_pathParams (h : op ∈ operations table paths) : (op.pathParams.map (·.name)).Nodup := by
  obtain ⟨path, item, id, method, declared, -, -, rfl⟩ := mem_operations h
  rw [operationRecord, names_pathParameters]
  exact Route.nodup_placeholders path

end Extract

/-- Renaming leaves the parameters of an operation their names. -/
theorem MappingTable.nodup_pathParams_apply {t : MappingTable} {ops ops' : List Operation}
    {schemas schemas' : List Api.SchemaRecord} (h : t.apply ops schemas = .ok (ops', schemas'))
    (hops : ∀ op ∈ ops, (op.pathParams.map (·.name)).Nodup) :
    ∀ op ∈ ops', (op.pathParams.map (·.name)).Nodup := by
  obtain ⟨r, ids, -, -, rfl, -⟩ := MappingTable.apply_eq_ok.mp h
  intro op hop
  obtain ⟨old, hold, id, rfl⟩ := exists_of_mem_zipWith hop
  have hnames : (old.renamed r.apply id).pathParams.map (·.name) = old.pathParams.map (·.name) := by
    simp [Operation.renamed, Operation.renameReferences, Api.Parameter.rename]
  exact hnames ▸ hops old hold

namespace TypeScript
variable {a b name : String} {s : List Char} {op : Operation} {m : Model}

/-! ### Identifiers -/

theorem ends_of_reserved (h : name ∈ reserved) : name.toList.head? ≠ some '_' ∧
    name.toList.getLast? ≠ some '_' ∧ isIdentifier (name ++ "_").toList := by
  have all : ∀ name ∈ reserved, name.toList.head? ≠ some '_' ∧
      name.toList.getLast? ≠ some '_' ∧ isIdentifier (name ++ "_").toList := by decide +kernel
  exact all name h

theorem ident_not_mem_reserved (name : String) : ident name ∉ reserved := by
  rw [ident]
  split
  · decide
  · split
    · exact fun h => (ends_of_reserved h).2.1 (by simp)
    · split
      · exact fun h => (ends_of_reserved h).1 (by simp)
      · assumption

theorem isIdentifier_ident (hne : name.toList ≠ []) (h : ∀ c ∈ name.toList, Letter.isAsciiAlnum c) :
    isIdentifier (ident name).toList := by
  rw [ident]
  split
  · exact (hne ‹_›).elim
  · rename_i c rest hname
    obtain ⟨hc, hrest⟩ := List.forall_mem_cons.mp (hname ▸ h)
    have hplain : ∀ d ∈ rest, Letter.isAsciiAlnum d ∨ d = '_' ∨ d = '$' := fun d hd => .inl (hrest d hd)
    split
    · rename_i hreserved
      exact (ends_of_reserved hreserved).2.2
    · split
      · rw [String.toList_append]
        exact isIdentifier_cons.mpr ⟨.inr (.inl rfl), fun d hd => .inl (h d hd)⟩
      · rename_i hdigit
        rw [hname]
        refine isIdentifier_cons.mpr ⟨.inl ?_, hplain⟩
        simpa [Letter.isAsciiAlnum, isAsciiLetter, hdigit] using hc

/-- The identifier of the parameter for a name in a path. -/
def pathIdent (name : String) : String := ident (Name.ofText name).camel

theorem pathIdent_eq_iff : pathIdent a = pathIdent b ↔ Name.words a = Name.words b := by
  have hmember (name : String) : pathIdent name = Target.member .typescript name := by
    simp only [pathIdent, Target.member, Target.ident, Target.cased]
  rw [hmember, hmember, Target.member_eq_iff]

theorem isIdentifier_pathIdent (name : String) : isIdentifier (pathIdent name).toList := by
  have hwords := Name.isLowered_words name
  rw [pathIdent, Name.camel_eq]
  refine isIdentifier_ident ?_ ?_
  · rw [String.toList_ofList]
    exact (trimmed_camel hwords).1
  · rw [String.toList_ofList]
    exact Words.ascii_joinedCamel hwords

/-! ### The signature -/

/-- What a method takes beside the parameters of the path. -/
def otherIdents (op : Operation) : List String :=
  (op.body.toList.map fun _ => "body") ++ (if op.queryParams = [] then [] else ["query"]) ++ ["options"]

theorem otherIdents_subset_reserved (op : Operation) : otherIdents op ⊆ reserved := by
  have hothers : ["body", "query", "options"] ⊆ reserved := by decide
  refine List.Subset.trans (fun id hid => ?_) hothers
  rw [otherIdents] at hid
  split at hid <;> simp at hid ⊢ <;> tauto

theorem nodup_otherIdents (op : Operation) : (otherIdents op).Nodup := by
  rw [otherIdents]
  cases op.body <;> split <;> simp

theorem pathIdent_not_mem_otherIdents (op : Operation) (name : String) : pathIdent name ∉ otherIdents op :=
  fun h => ident_not_mem_reserved _ (otherIdents_subset_reserved op h)

/-- The parameters beside those of the path, in the order in which they are looked at. -/
def others (v : OperationView) : List Parameter :=
  (v.body.map fun b => ⟨"body", !b.required, b.type⟩).toList ++
    (if v.queryParams.isEmpty then [] else [queryParameter v.queryParams]) ++
      [⟨"options", true, "RequestOptions"⟩]

theorem parameters_eq (v : OperationView) : parameters v = v.pathParams.map pathParameter ++
    ((others v).filter (!·.optional) ++ (others v).filter (·.optional)) := by
  rw [parameters, List.append_assoc]
  rfl

theorem pairwise_parameters (v : OperationView) :
    (parameters v).Pairwise fun a b => a.optional → b.optional := by
  rw [parameters_eq, ← List.append_assoc]
  -- whatever stands before the optional ones is required
  refine List.pairwise_append.mpr ⟨?_, ?_, fun _ _ b hb _ => (List.mem_filter.mp hb).2⟩
  · refine List.pairwise_of_forall_mem_list fun a ha b _ hoptional => ?_
    rcases List.mem_append.mp ha with ha | ha
    · obtain ⟨p, -, rfl⟩ := List.mem_map.mp ha
      cases hoptional
    · have hrequired := (List.mem_filter.mp ha).2
      simp [hoptional] at hrequired
  · exact List.pairwise_of_forall_mem_list fun _ _ b hb _ => (List.mem_filter.mp hb).2

namespace ClientMethod

def idents (c : ClientMethod) : List String := c.parameters.map (·.ident)

/-- What a method declares for an operation, and how it passes it on. In a signature and in an object, names
are told apart as they are printed; of two entries of an object with one key the later one counts. -/
structure Declares (c : ClientMethod) (op : Operation) : Prop where
  /-- A parameter for every name in the path, and one for whatever else there is. -/
  once : c.idents.Perm (op.pathParams.map (pathIdent ·.name) ++ otherIdents op)
  identifiers : ∀ p ∈ op.pathParams, isIdentifier (pathIdent p.name).toList ∧ pathIdent p.name ∉ reserved
  required_first : c.parameters.Pairwise fun a b => a.optional → b.optional
  query : c.parts.query ↔ "query" ∈ c.idents
  body : c.parts.body ↔ "body" ∈ c.idents
  passed_names : c.parts.pathParams.map Prod.fst = op.pathParams.map (·.name)
  /-- What is passed under a name is the parameter in its place, and as many parameters have its identifier
  as names have its words. -/
  passed : ∀ (i : Nat) (p : Api.Parameter), op.pathParams[i]? = some p →
    ∃ x : Parameter, c.parameters[i]? = some x ∧ ¬x.optional ∧
    Entries.get? (Entries.ofList (c.parts.pathParams.map fun e => (key e.1, e.2))) (key p.name) =
      some x.ident ∧
    c.idents.count x.ident = op.pathParams.countP fun q => Name.words q.name = Name.words p.name
  nodup : c.idents.Nodup ↔ (op.pathParams.map (Name.words ·.name)).Nodup

section
variable (m : Model) (op : Operation)

theorem parameters_of : (of m op).parameters =
    op.pathParams.map (fun p => pathParameter (.of m.types type p)) ++
      ((others (.of m.types type op)).filter (!·.optional) ++
        (others (.of m.types type op)).filter (·.optional)) := by
  have hpath : (OperationView.of m.types type op).pathParams.map pathParameter =
      op.pathParams.map fun p => pathParameter (.of m.types type p) := by
    simp only [OperationView.of, List.map_map, Function.comp_def]
  rw [of, ofView, parameters_eq, hpath]

theorem pathParams_of :
    (of m op).parts.pathParams = op.pathParams.map fun p => (p.name, pathIdent p.name) := by
  simp only [of, ofView, requestParts, OperationView.of, List.map_map, Function.comp_def, ParamView.of,
    pathIdent]

/-- The parameter that is declared for one of the path. -/
theorem ident_pathParameter (p : Api.Parameter) :
    (pathParameter (.of m.types type p)).ident = pathIdent p.name := by
  simp only [pathParameter, ParamView.of, pathIdent]

theorem idents_others : (others (.of m.types type op)).map (·.ident) = otherIdents op := by
  simp only [others, OperationView.of, otherIdents, List.map_append, List.isEmpty_iff, List.map_eq_nil_iff]
  cases op.body <;> split <;> simp [queryParameter]

theorem idents_of :
    (of m op).idents.Perm (op.pathParams.map (pathIdent ·.name) ++ otherIdents op) := by
  have hperm (xs : List Parameter) : (xs.filter (!·.optional) ++ xs.filter (·.optional)).Perm xs :=
    List.perm_append_comm.trans (List.filter_append_perm (·.optional) xs)
  rw [idents, parameters_of, List.map_append, List.map_map, ← idents_others m]
  simp only [Function.comp_def, ident_pathParameter]
  exact ((hperm _).map _).append_left _

theorem count_idents (name : String) : (of m op).idents.count (pathIdent name) =
      op.pathParams.countP fun q => Name.words q.name = Name.words name := by
  rw [(idents_of m op).count_eq, List.count_append,
    List.count_eq_zero_of_not_mem (pathIdent_not_mem_otherIdents op name), Nat.add_zero,
    List.count_eq_countP, List.countP_map]
  refine List.countP_congr fun p _ => ?_
  simp [pathIdent_eq_iff]

theorem nodup_idents_iff : (of m op).idents.Nodup ↔ (op.pathParams.map (Name.words ·.name)).Nodup := by
  have hdistinct : (op.pathParams.map (pathIdent ·.name)).Nodup ↔
      (op.pathParams.map (Name.words ·.name)).Nodup := by
    simp only [List.Nodup, List.pairwise_map, ne_eq, pathIdent_eq_iff]
  rw [(idents_of m op).nodup_iff, List.nodup_append', hdistinct, and_iff_left]
  refine ⟨nodup_otherIdents op, fun id hid hmem => ?_⟩
  obtain ⟨p, -, rfl⟩ := List.mem_map.mp hid
  exact pathIdent_not_mem_otherIdents op p.name hmem

theorem mem_idents_of_mem_reserved {id : String} (hid : id ∈ reserved) :
    id ∈ (of m op).idents ↔ id ∈ otherIdents op := by
  rw [(idents_of m op).mem_iff, List.mem_append, or_iff_right]
  intro hmem
  obtain ⟨p, -, rfl⟩ := List.mem_map.mp hmem
  exact ident_not_mem_reserved _ hid

end

/-- Names that are distinct are distinct keys, and so no entry replaces another. -/
theorem get?_pathParams (m : Model) (hd : (op.pathParams.map (·.name)).Nodup) :
    ∀ p ∈ op.pathParams,
      Entries.get? (Entries.ofList ((of m op).parts.pathParams.map fun e => (key e.1, e.2))) (key p.name) =
        some (pathIdent p.name) := by
  have hpairs : (of m op).parts.pathParams.map (fun e => (key e.1, e.2)) =
      op.pathParams.map fun p => (key p.name, pathIdent p.name) := by
    rw [pathParams_of, List.map_map, Function.comp_def]
  intro p hp
  rw [hpairs]
  have hapart : ∀ q ∈ op.pathParams, key q.name = key p.name → q = p :=
    fun q hq he => List.inj_on_of_nodup_map hd hq hp (key_inj.mp he)
  exact Entries.get?_ofList_map _ _ hapart hp

theorem declares_of (m : Model) (hd : (op.pathParams.map (·.name)).Nodup) : (of m op).Declares op where
  once := idents_of m op
  identifiers p _ := ⟨isIdentifier_pathIdent p.name, ident_not_mem_reserved _⟩
  required_first := pairwise_parameters (.of m.types type op)
  query := by
    rw [mem_idents_of_mem_reserved m op (by decide), otherIdents]
    simp [of, ofView, requestParts, OperationView.of]
  body := by
    rw [mem_idents_of_mem_reserved m op (by decide), otherIdents]
    simp [of, ofView, requestParts, OperationView.of, Option.isSome_iff_exists, Option.ne_none_iff_exists']
  passed_names := by
    rw [pathParams_of, List.map_map, Function.comp_def]
  passed i p hp := by
    have hplace : (op.pathParams.map fun p => pathParameter (.of m.types type p))[i]? =
        some (pathParameter (.of m.types type p)) := by
      rw [List.getElem?_map, hp, Option.map_some]
    obtain ⟨hlt, -⟩ := List.getElem?_eq_some_iff.mp hplace
    refine ⟨pathParameter (.of m.types type p), ?_, Bool.false_ne_true, ?_, ?_⟩
    · rw [parameters_of, List.getElem?_append_left hlt, hplace]
    · rw [ident_pathParameter]
      exact get?_pathParams m hd p (List.mem_of_getElem? hp)
    · rw [ident_pathParameter, count_idents]
  nodup := nodup_idents_iff m op

end ClientMethod

/-- The signature of every operation, before and after renaming, is in order, and agrees with what is passed
on, but for names in the path that have the same words: those get one identifier. -/
theorem signature_declares {d : Document} {t : MappingTable} {mode : FingerprintMode}
    (h : d.extract.prepare (some t) mode = .ok (.ready m))
    (hop : op ∈ d.extract.operations ∨ op ∈ m.operations) :
    (op.pathParams.map (·.name)).Nodup ∧ (ClientMethod.of m op).Declares op := by
  have hextracted : ∀ op ∈ d.extract.operations, (op.pathParams.map (·.name)).Nodup :=
    fun _ => Extract.nodup_pathParams
  have hd : (op.pathParams.map (·.name)).Nodup := by
    rcases hop with hop | hop
    · exact hextracted op hop
    · obtain ⟨-, happly, -, -⟩ := Api.prepare_eq_ready h
      exact MappingTable.nodup_pathParams_apply happly hextracted op hop
  exact ⟨hd, ClientMethod.declares_of m hd⟩

/-- One operation on a path. -/
def routed (path : String) (parameters : List Document.Parameter) (body : Option Document.Body) : Document where
  openapi := "3.1.0"
  info := ⟨"Routed", none, "1"⟩
  servers := []
  paths := [(path, ⟨[], some ⟨some "pet", none, none, false, parameters.map .inline, body.map .inline, []⟩,
    none, none, none, none, none, none, none⟩)]
  components := none

/-- Names that are no identifiers, or those of other parameters, and a body that need not be given. -/
def crowdedRoute : Document :=
  routed "/\x7bdelete\x7d/\x7b2fa\x7d/\x7bquery\x7d/\x7bpet-id\x7d" [⟨"page", .query, none, true, none⟩]
    (some ⟨[("application/json", ⟨none, none⟩)], false⟩)

theorem signature_declares_crowdedRoute : ∃ m op,
    crowdedRoute.extract.prepare (some .empty) .typed = .ok (.ready m) ∧ op ∈ m.operations ∧
      (op.pathParams.map (·.name)).Nodup ∧ (ClientMethod.of m op).Declares op ∧
      (ClientMethod.of m op).idents = ["delete_", "_2fa", "query_", "petId", "query", "body", "options"] ∧
      (ClientMethod.of m op).signature = "delete_: string, _2fa: string, query_: string, petId: string, " ++
        "query: \x7b page: unknown \x7d, body?: unknown, options?: RequestOptions" := by
  obtain ⟨m, op, hm, hop, hidents, hsignature⟩ : ∃ m op,
      crowdedRoute.extract.prepare (some .empty) .typed = .ok (.ready m) ∧ op ∈ m.operations ∧
        (ClientMethod.of m op).idents = ["delete_", "_2fa", "query_", "petId", "query", "body", "options"] ∧
        (ClientMethod.of m op).signature = "delete_: string, _2fa: string, query_: string, petId: string, " ++
          "query: \x7b page: unknown \x7d, body?: unknown, options?: RequestOptions" :=
    ⟨_, _, rfl, List.mem_cons_self, by decide +kernel, by decide +kernel⟩
  obtain ⟨hnames, hdeclares⟩ := signature_declares hm (.inr hop)
  exact ⟨m, op, hm, hop, hnames, hdeclares, hidents, hsignature⟩

/-- Two names of the same words are declared twice, and one argument is passed on for both. -/
theorem petId_declared_twice : ∃ m op,
    (routed "/pets/\x7bpet_id\x7d/\x7bpetId\x7d" [] none).extract.prepare (some .empty) .typed =
        .ok (.ready m) ∧ op ∈ m.operations ∧ ¬(ClientMethod.of m op).idents.Nodup ∧
      (ClientMethod.of m op).signature = "petId: string, petId: string, options?: RequestOptions" ∧
      (ClientMethod.of m op).parts.pathParams = [("pet_id", "petId"), ("petId", "petId")] :=
  ⟨_, _, rfl, List.mem_cons_self, by decide +kernel, by decide +kernel, by decide +kernel⟩

end TypeScript
end ClientGen
