import ClientGen.Proofs.Package.Accessors

/-! The classes of the generated clients and their members. Identifiers and services that differ may
still be written with the same words, and then a class has a member twice. -/
namespace ClientGen
open Api (Operation)
variable {api : Api} {t : MappingTable} {mode : FingerprintMode} {m : Model} {o : Options}
  {a : Artifact} {target : Target} {groups : Groups} {ops : List Operation} {ls : Lines}

/-- A generated class: what it has anyway, and the methods of operations. -/
structure ClientClass where
  fixed : List String
  methods : List String

def ClientClass.members (c : ClientClass) : List String := c.fixed ++ c.methods

/-- The names of a service in the grouped client. -/
structure ServiceNames where
  className : String
  accessor : String
  methods : List String

namespace Target

/-- The methods of the flat client. -/
def flatMethods (m : Model) : Target → Except MappingError (List String)
  | .typescript => (TypeScript.flatMethods m).map (·.map (·.name))
  | .python => (Python.flatMethods m).map (·.map (·.name))

/-- The services of the grouped client, and its own methods. -/
def grouped (m : Model) : Target → Except MappingError (List ServiceNames × List String)
  | .typescript => (TypeScript.GroupedClient.of m).map fun g =>
    (g.services.map fun s => ⟨s.className, s.accessor, s.methods.map (·.name)⟩,
      g.root.map (·.name))
  | .python => (Python.GroupedClient.of m).map fun g =>
    (g.services.map fun s => ⟨s.className, s.accessor, s.methods.map (·.name)⟩,
      g.root.map (·.name))

/-- The classes that are written to a file, in order. -/
def classes (m : Model) (target : Target) : Artifact → Except MappingError (List ClientClass)
  | .flatClient => (target.flatMethods m).map fun methods => [⟨target.clientMembers, methods⟩]
  | .serviceClient => (target.grouped m).map fun (services, root) =>
    services.map (fun s => ⟨target.serviceMembers, s.methods⟩) ++ [⟨target.clientMembers, root⟩]
  | _ => .ok []

theorem name_typescript (op : Operation) :
    (TypeScript.ClientMethod.of m op).name = member .typescript op.id := by
  simp only [TypeScript.ClientMethod.of, TypeScript.ClientMethod.ofView, OperationView.of, member,
    ident, cased]

theorem name_python (op : Operation) : (Python.ClientMethod.of m op).name = member .python op.id := by
  simp only [Python.ClientMethod.of, Python.ClientMethod.ofView, OperationView.of, member, ident, cased]

theorem flatMethods_eq (m : Model) (target : Target) :
    target.flatMethods m = m.flatOperations.map (·.map fun op => target.member op.id) := by
  cases target with
  | typescript =>
    rw [flatMethods, TypeScript.flatMethods]
    cases m.flatOperations <;> simp [Except.map, name_typescript]
  | python =>
    rw [flatMethods, Python.flatMethods]
    cases m.flatOperations <;> simp [Except.map, name_python]

theorem grouped_eq (m : Model) (target : Target) : target.grouped m = m.services.map fun groups =>
    (groups.map fun g =>
        ⟨serviceClassName g.1, target.member g.1, g.2.map fun op => target.member op.id⟩,
      m.rootOperations.map fun op => target.member op.id) := by
  cases target with
  | typescript =>
    rw [grouped, TypeScript.GroupedClient.of]
    cases m.services <;> simp [Except.map, TypeScript.Service.of, name_typescript, member, ident, cased]
  | python =>
    rw [grouped, Python.GroupedClient.of]
    cases m.services <;> simp [Except.map, Python.Service.of, name_python, member, ident, cased]

end Target

namespace Model

theorem exists_flatOperations (h : target.render m o .flatClient = .ok ls) :
    ∃ ops, m.flatOperations = .ok ops := by
  cases target
  all_goals
    obtain ⟨_, -, h⟩ := bind_eq_ok.mp h
    obtain ⟨_, hm, -⟩ := bind_eq_ok.mp (mapError_eq_ok.mp h)
    obtain ⟨ops, ho, -⟩ := exceptMap_eq_ok.mp hm
    exact ⟨ops, ho⟩

theorem exists_services (h : target.render m o .serviceClient = .ok ls) :
    ∃ groups, m.services = .ok groups := by
  cases target
  all_goals
    obtain ⟨_, -, h⟩ := bind_eq_ok.mp h
    obtain ⟨_, hm, -⟩ := bind_eq_ok.mp (mapError_eq_ok.mp h)
    obtain ⟨groups, hg, -⟩ := exceptMap_eq_ok.mp hm
    exact ⟨groups, hg⟩

/-- The operations of the classes that are written to a file, in order. -/
def classOperations (m : Model) : Artifact → List (List Operation)
  | .flatClient => [m.operations]
  | .serviceClient => m.namedGroups.map (·.2) ++ [m.rootOperations]
  | _ => []

/-- A class as it is made from operations. -/
structure MadeFrom (target : Target) (ops : List Operation) (c : ClientClass) : Prop where
  fixed : c.fixed = target.clientMembers ∨ c.fixed = target.serviceMembers
  methods : c.methods = ops.map fun op => target.member op.id

theorem forall₂_madeFrom (groups : Groups) (ops : List Operation) : List.Forall₂ (MadeFrom target)
    (groups.map (·.2) ++ [ops])
    (groups.map (fun g => ⟨target.serviceMembers, g.2.map fun op => target.member op.id⟩)
      ++ [⟨target.clientMembers, ops.map fun op => target.member op.id⟩]) := by
  induction groups with
  | nil => exact .cons ⟨.inl rfl, rfl⟩ .nil
  | cons g groups ih => exact .cons ⟨.inr rfl, rfl⟩ ih

/-- What is rendered has one class with every operation, or one for each named service and one for the
others. Within each of them, identifiers are distinct. -/
theorem classes_of_render (hd : m.groups.Distinct) (h : target.render m o a = .ok ls) :
    ∃ cs, target.classes m a = .ok cs ∧ List.Forall₂ (MadeFrom target) (m.classOperations a) cs ∧
      ∀ ops ∈ m.classOperations a, (ops.map (·.id)).Nodup := by
  cases a with
  | flatClient =>
    obtain ⟨ops, ho⟩ := exists_flatOperations h
    obtain ⟨rfl, hids⟩ := flatOperations_eq_ok_iff.mp ho
    rw [Target.classes, Target.flatMethods_eq, ho]
    exact ⟨_, rfl, .cons ⟨.inl rfl, rfl⟩ .nil, by simpa [classOperations] using hids⟩
  | serviceClient =>
    obtain ⟨groups, hg⟩ := exists_services h
    obtain rfl := services_eq_ok hg
    refine ⟨_, by rw [Target.classes, Target.grouped_eq, hg]; rfl, ?_, fun ops hops => ?_⟩
    · dsimp only
      rw [List.map_map]
      exact forall₂_madeFrom m.namedGroups m.rootOperations
    · rcases List.mem_append.mp hops with hops | hops
      · obtain ⟨g, hg, rfl⟩ := List.mem_map.mp hops
        exact hd.ids g (List.mem_of_mem_filter hg)
      · rw [List.mem_singleton.mp hops, rootOperations]
        cases hs : Entries.get? m.groups defaultService with
        | none => exact List.nodup_nil
        | some members => exact hd.ids _ (Entries.mem_of_get? hs)
  | _ => exact ⟨[], rfl, .nil, by simp [classOperations]⟩

theorem MadeFrom.nodup_members_iff {c : ClientClass} (h : MadeFrom target ops c) : c.members.Nodup ↔
    (ops.map fun op => Name.words op.id).Nodup ∧ ∀ op ∈ ops, target.cased op.id ∉ c.fixed := by
  have hmethods : c.methods = (ops.map (·.id)).map target.member := by
    rw [h.methods, List.map_map]
    rfl
  have hsub : c.fixed ⊆ target.clientMembers := by
    rcases h.fixed with hf | hf <;> rw [hf]
    · exact List.Subset.refl _
    · cases target <;> decide
  have hnodup : c.fixed.Nodup := by
    rcases h.fixed with hf | hf <;> rw [hf] <;> cases target <;> decide
  rw [ClientClass.members, hmethods, Target.nodup_members_iff hsub hnodup, List.map_map,
    List.forall_mem_map]
  rfl

/-- No method of the client itself has the name of an accessor. -/
theorem member_ne_of_services (target : Target) (h : m.services = .ok groups) {op : Operation}
    (hop : op ∈ m.rootOperations) {service : String} (hs : service ∈ groups.keys) :
    target.member op.id ≠ target.member service := by
  obtain ⟨rfl, hapart⟩ := services_eq_ok_iff.mp h
  exact hapart target op hop service hs

end Model

theorem serviceClassName_eq_iff {a b : String} : serviceClassName a = serviceClassName b ↔
    Name.words a = Name.words b := by
  rw [serviceClassName, serviceClassName, String.append_left_inj, Name.pascal_eq_iff]

theorem Groups.distinct_of_prepare (h : api.prepare (some t) mode = .ok (.ready m)) :
    m.groups.Distinct := by
  obtain ⟨groups, -, hg, hm⟩ := Api.prepare_eq_ready h
  rw [hm]
  exact distinct_ofOperations hg

/-- In every client that is rendered, the identifiers within a class are distinct; its members are
distinct exactly if these are written with different words and none is cased like a member that every
such class has. -/
theorem Api.class_members_distinct_iff (h : api.prepare (some t) mode = .ok (.ready m))
    (hr : target.render m o a = .ok ls) : ∃ cs, target.classes m a = .ok cs ∧
      List.Forall₂ (fun ops c => Model.MadeFrom target ops c ∧ (ops.map (·.id)).Nodup ∧
        (c.members.Nodup ↔ (ops.map fun op => Name.words op.id).Nodup ∧
          ∀ op ∈ ops, target.cased op.id ∉ c.fixed)) (m.classOperations a) cs := by
  obtain ⟨cs, hcs, hmade, hids⟩ := Model.classes_of_render (Groups.distinct_of_prepare h) hr
  have hclasses := (List.forall₂_and_left _ _).mpr ⟨hids, hmade⟩
  exact ⟨cs, hcs, hclasses.imp fun ops c hc => ⟨hc.2, hc.1, hc.2.nodup_members_iff⟩⟩

/-- An operation that has an identifier and nothing else. -/
def Api.Operation.named (id : String) : Operation :=
  ⟨id, id, .get, "/" ++ id, none, none, false, [], [], none, none, none⟩

def Api.ofIds (ids : List String) : Api := ⟨⟨"t", none, "1"⟩, none, ids.map .named, []⟩

theorem Api.class_members_distinct_list : ∃ m ls cs,
    (ofIds ["fooBar", "list"]).prepare (some .empty) .names = .ok (.ready m) ∧
    Target.render .python m ⟨.flat, none, 30, false⟩ .flatClient = .ok ls ∧
    Target.classes m .python .flatClient = .ok cs ∧ ∀ c ∈ cs, c.members.Nodup := by
  have ready : ∃ m, (ofIds ["fooBar", "list"]).prepare (some .empty) .names = .ok (.ready m) ∧
      m.classOperations .flatClient = [[.named "fooBar", .named "list"]] ∧
      ∃ ls, Target.render .python m ⟨.flat, none, 30, false⟩ .flatClient = .ok ls :=
        ⟨_, rfl, rfl, _, rfl⟩
  obtain ⟨m, hm, hops, ls, hr⟩ := ready
  obtain ⟨cs, hcs, hclasses⟩ := Api.class_members_distinct_iff hm hr
  refine ⟨m, ls, cs, hm, hr, hcs, fun c hc => ?_⟩
  obtain ⟨ops, hmem, hmade, -, hiff⟩ := exists_of_forall₂ hclasses hc
  obtain rfl : ops = [.named "fooBar", .named "list"] := by simpa [hops] using hmem
  refine hiff.mpr ⟨by decide +kernel, ?_⟩
  rcases hmade.fixed with hf | hf <;> rw [hf] <;> decide +kernel

/-- Distinct identifiers, one member. -/
theorem Api.class_members_fooBar_twice : ∃ m ls cs,
    (ofIds ["fooBar", "FooBar"]).prepare (some .empty) .names = .ok (.ready m) ∧
    Target.render .typescript m ⟨.flat, none, 30, false⟩ .flatClient = .ok ls ∧
    Target.classes m .typescript .flatClient = .ok cs ∧ ∃ c ∈ cs, ¬c.members.Nodup := by
  refine ⟨_, _, _, rfl, rfl, rfl, _, List.mem_singleton_self _, ?_⟩
  decide +kernel

/-- In a grouped client, services are distinct; their classes, and the accessors beside the members of
the client, are distinct exactly if these are written with different words and no accessor is cased like
such a member. No method of the client itself has the name of an accessor. -/
theorem Api.service_names_distinct_iff (h : api.prepare (some t) mode = .ok (.ready m))
    (hs : m.services = .ok groups) (target : Target) : ∃ services root,
      target.grouped m = .ok (services, root) ∧ groups.keys.Nodup ∧
      ((services.map (·.className)).Nodup ↔ (groups.keys.map Name.words).Nodup) ∧
      ((target.clientMembers ++ services.map (·.accessor)).Nodup ↔
        (groups.keys.map Name.words).Nodup ∧
          ∀ s ∈ groups.keys, target.cased s ∉ target.clientMembers) ∧
      ∀ name ∈ root, name ∉ services.map (·.accessor) := by
  obtain rfl := Model.services_eq_ok hs
  refine ⟨_, _, by rw [Target.grouped_eq, hs]; rfl, ?_, ?_, ?_, ?_⟩
  · have hkeys := (Groups.distinct_of_prepare h).services
    exact hkeys.sublist (List.filter_sublist.map Prod.fst)
  · simp only [List.Nodup, Entries.keys, List.pairwise_map, serviceClassName_eq_iff, ne_eq]
  · have hfixed : target.clientMembers.Nodup := by cases target <;> decide
    have haccessors := (Target.nodup_members_iff (List.Subset.refl _) hfixed :
      (target.clientMembers ++ m.namedGroups.keys.map target.member).Nodup ↔ _)
    simpa only [Entries.keys, List.map_map, Function.comp_def] using haccessors
  · intro name hname hmem
    rw [List.map_map] at hmem
    obtain ⟨op, hop, rfl⟩ := List.mem_map.mp hname
    obtain ⟨g, hg, he⟩ := List.mem_map.mp hmem
    exact Model.member_ne_of_services target hs hop (List.mem_map_of_mem hg) he.symm

/-- Puts two operations into a service each. -/
def MappingTable.twoServices (first second : String) : MappingTable :=
  ⟨[("a", .service first "list"), ("b", .service second "list")], []⟩

theorem Api.service_names_distinct_users : ∃ m groups services root,
    (ofIds ["a", "b"]).prepare (some (.twoServices "pets" "users")) .names = .ok (.ready m) ∧
    m.services = .ok groups ∧ Target.grouped m .python = .ok (services, root) ∧
    (services.map (·.className)).Nodup ∧
    (Target.clientMembers .python ++ services.map (·.accessor)).Nodup := by
  have ready : ∃ m groups,
      (ofIds ["a", "b"]).prepare (some (.twoServices "pets" "users")) .names = .ok (.ready m) ∧
      m.services = .ok groups ∧ groups.keys = ["pets", "users"] := ⟨_, _, rfl, rfl, rfl⟩
  obtain ⟨m, groups, hm, hg, hkeys⟩ := ready
  obtain ⟨services, root, hs, -, hclasses, haccessors, -⟩ :=
    Api.service_names_distinct_iff hm hg .python
  rw [hkeys] at hclasses haccessors
  exact ⟨m, groups, services, root, hm, hg, hs, hclasses.mpr (by decide +kernel),
    haccessors.mpr (by decide +kernel)⟩

/-- Distinct services, one class and one accessor. -/
theorem Api.service_names_pets_twice : ∃ m groups services root,
    (ofIds ["a", "b"]).prepare (some (.twoServices "pets" "Pets")) .names = .ok (.ready m) ∧
    m.services = .ok groups ∧ Target.grouped m .typescript = .ok (services, root) ∧
    ¬(services.map (·.className)).Nodup ∧ ¬(services.map (·.accessor)).Nodup := by
  refine ⟨_, _, _, _, rfl, rfl, rfl, ?_⟩
  decide +kernel

end ClientGen
