import ClientGen.Proofs.Package.Basic
import ClientGen.Proofs.Package.Classes

/-! The flat and the grouped client of a target. The first takes operations as they are listed, the
second group by group; both have the same methods and import the same names. -/
namespace ClientGen
open Api (Operation)
variable {api : Api} {t : MappingTable} {mode : FingerprintMode} {m : Model} {ops : List Operation}
  {groups : Groups} {target : Target}

namespace Target

/-- All that a client says about one of its methods. -/
def Method : Target → Type
  | .typescript => TypeScript.ClientMethod
  | .python => Python.ClientMethod

def method (m : Model) : (target : Target) → Operation → target.Method
  | .typescript => TypeScript.ClientMethod.of m
  | .python => Python.ClientMethod.of m

def flatClient (m : Model) : (target : Target) → Except MappingError (List target.Method)
  | .typescript => TypeScript.flatMethods m
  | .python => Python.flatMethods m

/-- The methods of every service in order, and then those of the client itself. -/
def groupedClient (m : Model) : (target : Target) → Except MappingError (List target.Method)
  | .typescript => (TypeScript.GroupedClient.of m).map (·.methods)
  | .python => (Python.GroupedClient.of m).map (·.methods)

def importedTypes : (target : Target) → List target.Method → List String
  | .typescript => TypeScript.importedTypes
  | .python => Python.importedTypes

def importedDecoders : (target : Target) → List target.Method → List String
  | .typescript => TypeScript.importedDecoders
  | .python => Python.importedDecoders

def stream : (target : Target) → target.Method → Option Api.StreamKind
  | .typescript => TypeScript.ClientMethod.stream
  | .python => Python.ClientMethod.stream

/-- The declared types that the signature mentions. -/
def namedTypes : (target : Target) → target.Method → List String
  | .typescript => TypeScript.ClientMethod.namedTypes
  | .python => Python.ClientMethod.namedTypes

/-- The methods of one of the clients: the flat one, or the grouped one with all its services. -/
def IsClient (target : Target) (m : Model) (methods : List target.Method) : Prop :=
  target.flatClient m = .ok methods ∨ target.groupedClient m = .ok methods

theorem flatClient_eq (target : Target) :
    target.flatClient m = m.flatOperations.map fun ops => ops.map (target.method m) := by
  cases target <;> rfl

theorem groupedClient_eq (target : Target) : target.groupedClient m =
    m.services.map fun groups => (groups.members ++ m.rootOperations).map (target.method m) := by
  cases target with
  | typescript =>
    rw [groupedClient, TypeScript.GroupedClient.of]
    cases m.services with
    | error e => rfl
    | ok groups =>
      simp only [Except.map, Groups.members, TypeScript.GroupedClient.methods, TypeScript.Service.of,
        List.map_append, List.map_flatMap, List.flatMap_map]
      rfl
  | python =>
    rw [groupedClient, Python.GroupedClient.of]
    cases m.services with
    | error e => rfl
    | ok groups =>
      simp only [Except.map, Groups.members, Python.GroupedClient.methods, Python.Service.of,
        List.map_append, List.map_flatMap, List.flatMap_map]
      rfl

/-- Every method of a client stands for an operation of the model. -/
theorem IsClient.exists_operations {methods : List target.Method} (h : target.IsClient m methods) (hm : m.Sound) :
    ∃ ops : List Operation, methods = ops.map (target.method m) ∧ ∀ op ∈ ops, op ∈ m.operations := by
  rcases h with h | h
  · rw [flatClient_eq] at h
    obtain ⟨ops, ho, rfl⟩ := exceptMap_eq_ok.mp h
    exact ⟨ops, rfl, fun op hop => m.flatOperations_eq_ok ho ▸ hop⟩
  · rw [groupedClient_eq] at h
    obtain ⟨groups, hg, rfl⟩ := exceptMap_eq_ok.mp h
    obtain rfl := Model.services_eq_ok hg
    exact ⟨_, rfl, hm.mem_of_grouped⟩

theorem importedTypes_eq (methods : List target.Method) : target.importedTypes methods =
    sortTexts ((methods.flatMap target.namedTypes).foldl addNew []) := by
  cases target <;> rfl

theorem mem_namedTypes {a : String} {op : Operation} : a ∈ target.namedTypes (target.method m op) ↔
    ∃ type ∈ m.types.typesOf op, type.Mentions a := by
  cases target with
  | typescript => exact OperationView.mem_namedTypes TypeScript.type
  | python => exact OperationView.mem_namedTypes Python.annotation

/-- A client imports the types that its operations mention. -/
theorem mem_importedTypes {a : String} : a ∈ target.importedTypes (ops.map (target.method m)) ↔
    ∃ op ∈ ops, ∃ type ∈ m.types.typesOf op, type.Mentions a := by
  rw [importedTypes_eq, mem_sortTexts_addNew, List.flatMap_map, List.mem_flatMap]
  exact exists_congr fun op => and_congr_right fun _ => mem_namedTypes

theorem stream_method {op : Operation} : target.stream (target.method m op) = op.stream.map (·.kind) := by
  cases target <;> exact Option.map_map _ _ _

/-- The order of methods does not show in what a client imports. -/
theorem importedTypes_congr {methods methods' : List target.Method} (h : methods.Perm methods') :
    target.importedTypes methods = target.importedTypes methods' := by
  rw [importedTypes_eq, importedTypes_eq]
  exact sortTexts_addNew_congr fun _ => (h.flatMap_right _).mem_iff

theorem importedDecoders_congr {methods methods' : List target.Method} (h : methods.Perm methods') :
    target.importedDecoders methods = target.importedDecoders methods' := by
  cases target with
  | typescript => exact sortTexts_addNew_congr fun _ => (h.filterMap _).mem_iff
  | python => exact sortTexts_addNew_congr fun _ => (h.filterMap _).mem_iff

/-- The two clients are made of the same operations, each taken once, and import the same. -/
structure SameMethods (target : Target) (m : Model) (flat grouped : List target.Method) : Prop where
  flat_eq : flat = m.operations.map (target.method m)
  grouped_eq : grouped = (m.namedGroups.members ++ m.rootOperations).map (target.method m)
  operations : (m.namedGroups.members ++ m.rootOperations).Perm m.operations
  distinct : (m.operations.map (·.id)).Nodup
  methods : grouped.Perm flat
  types : target.importedTypes grouped = target.importedTypes flat
  decoders : target.importedDecoders grouped = target.importedDecoders flat

end Target

/-- In a model that is prepared, every operation is in a named group or at the root, once. -/
theorem Api.perm_of_prepare (h : api.prepare (some t) mode = .ok (.ready m)) :
    (m.namedGroups.members ++ m.rootOperations).Perm m.operations := by
  have hkeys := (Groups.distinct_of_prepare h).services
  obtain ⟨groups, -, hgroups, hm⟩ := Api.prepare_eq_ready h
  have hall : m.groups.members.Perm m.operations := by
    rw [hm]
    exact Groups.members_ofOperations hgroups
  exact (Groups.members_apart hkeys defaultService).trans hall

/-- Where both clients can be made they have the same methods: every operation is a method of each of
them once, with one signature, result, request, decoder and documentation, and what they import is the
same. -/
theorem Api.clients_agree (h : api.prepare (some t) mode = .ok (.ready m))
    (hf : m.flatOperations = .ok ops) (hs : m.services = .ok groups) (target : Target) :
    ∃ flat grouped, target.flatClient m = .ok flat ∧ target.groupedClient m = .ok grouped ∧
      target.SameMethods m flat grouped := by
  obtain ⟨rfl, hids⟩ := Model.flatOperations_eq_ok_iff.mp hf
  obtain rfl := Model.services_eq_ok hs
  have hperm := Api.perm_of_prepare h
  have hmethods := hperm.map (target.method m)
  have hflat : target.flatClient m = .ok (m.operations.map (target.method m)) := by
    rw [Target.flatClient_eq, hf]
    rfl
  have hgrouped : target.groupedClient m =
      .ok ((m.namedGroups.members ++ m.rootOperations).map (target.method m)) := by
    rw [Target.groupedClient_eq, hs]
    rfl
  exact ⟨_, _, hflat, hgrouped, rfl, rfl, hperm,
    hids, hmethods, Target.importedTypes_congr hmethods, Target.importedDecoders_congr hmethods⟩

/-- A getter of one schema, and a stream of another one. -/
def Api.watched : Api :=
  ⟨⟨"t", none, "1"⟩, none,
    [getter "A", { getter "B" with
      id := "watch"
      extractedId := "watch"
      response := none
      stream := some ⟨.ndjson, .reference "B"⟩ }],
    twins "A" "B"⟩

/-- The stream is put into a service, and so goes first in the grouped client. -/
theorem Api.clients_agree_watched : ∃ m flat grouped,
    watched.prepare (some ⟨[("watch", .service "feed" "watch")], []⟩) .names = .ok (.ready m) ∧
    TypeScript.flatMethods m = .ok flat ∧ (TypeScript.GroupedClient.of m).map (·.methods) = .ok grouped ∧
    flat.map (·.name) = ["get", "watch"] ∧ grouped.map (·.name) = ["watch", "get"] ∧
    TypeScript.importedTypes grouped = TypeScript.importedTypes flat ∧
    TypeScript.importedDecoders grouped = TypeScript.importedDecoders flat := by
  have ready : ∃ m ops groups,
      watched.prepare (some ⟨[("watch", .service "feed" "watch")], []⟩) .names = .ok (.ready m) ∧
      m.flatOperations = .ok ops ∧ m.services = .ok groups ∧ m.operations.map (·.id) = ["get", "watch"] ∧
      (m.namedGroups.members ++ m.rootOperations).map (·.id) = ["watch", "get"] :=
    ⟨_, _, _, rfl, rfl, rfl, rfl, rfl⟩
  obtain ⟨m, ops, groups, hm, hops, hgroups, hflat, hgrouped⟩ := ready
  obtain ⟨flat, grouped, hf, hg, same⟩ := Api.clients_agree hm hops hgroups .typescript
  have names (ops : List Operation) : (ops.map (TypeScript.ClientMethod.of m)).map (·.name) =
      (ops.map (·.id)).map (Target.member .typescript) := by
    simp only [List.map_map, Function.comp_def, Target.name_typescript]
  refine ⟨m, flat, grouped, hm, hf, hg, ?_, ?_, same.types, same.decoders⟩
  · rw [same.flat_eq]
    refine (names _).trans ?_
    rw [hflat]
    decide +kernel
  · rw [same.grouped_eq]
    refine (names _).trans ?_
    rw [hgrouped]
    decide +kernel

end ClientGen
