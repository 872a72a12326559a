import ClientGen.Proofs.Grouping
import ClientGen.Proofs.Package.Member

/-! Root methods and accessors of services. Both are members of one class, and names are compared in camel
case only; this decides for every target. -/
namespace ClientGen
open Api (Operation)
variable {m : Model} {target : Target} {op : Operation} {service : String} {groups : Groups}
  {e : MappingError}

/-- One casing tells whether two members are the same, whatever the target. -/
theorem Target.member_eq_iff_camel {a b : String} (target : Target) :
    target.member a = target.member b ↔ (Name.ofText b).camel = (Name.ofText a).camel := by
  rw [member_eq_iff, Name.camel_eq_iff, eq_comm]

namespace Model

/-- No root method has the name of an accessor. -/
def MembersApart (m : Model) : Prop := ∀ target : Target, ∀ op ∈ m.rootOperations,
  ∀ service ∈ m.namedGroups.keys, target.member op.id ≠ target.member service

/-- The first root operation that has the name of an accessor, and the first service with that accessor. -/
structure FirstClash (m : Model) (op : Operation) (service : String) : Prop where
  same : ∀ target : Target, target.member op.id = target.member service
  operation : ∃ before after, m.rootOperations = before ++ op :: after ∧ ∀ x ∈ before,
    ∀ s ∈ m.namedGroups.keys, ∀ target : Target, target.member x.id ≠ target.member s
  service : ∃ before after, m.namedGroups.keys = before ++ service :: after ∧ ∀ s ∈ before,
    ∀ target : Target, target.member op.id ≠ target.member s

/-- The service that an operation is found to clash with. -/
def clashOf? (m : Model) (op : Operation) : Option (String × List Operation) :=
  m.namedGroups.find? fun group => (Name.ofText group.1).camel = (Name.ofText op.id).camel

theorem clashOf?_eq_none_iff : m.clashOf? op = none ↔
    ∀ s ∈ m.namedGroups.keys, ∀ target : Target, target.member op.id ≠ target.member s := by
  simp only [clashOf?, List.find?_eq_none, decide_eq_true_eq, Entries.keys, List.forall_mem_map, ne_eq,
    Target.member_eq_iff_camel]
  exact ⟨fun h g hg _ => h g hg, fun h g hg => h g hg .typescript⟩

theorem clashOf?_eq_some_iff : (∃ ops, m.clashOf? op = some (service, ops)) ↔
    (∀ target : Target, target.member op.id = target.member service) ∧
    ∃ before after, m.namedGroups.keys = before ++ service :: after ∧ ∀ s ∈ before,
      ∀ target : Target, target.member op.id ≠ target.member s := by
  simp only [clashOf?, List.find?_eq_some_iff_append, decide_eq_true_eq, Bool.not_eq_true',
    decide_eq_false_iff_not, Target.member_eq_iff_camel, ne_eq]
  constructor
  · rintro ⟨ops, hsame, before, after, hgroups, hbefore⟩
    refine ⟨fun _ => hsame, before.map Prod.fst, after.map Prod.fst, ?_, ?_⟩
    · rw [hgroups, Entries.keys, List.map_append, List.map_cons]
    · exact List.forall_mem_map.mpr fun g hg _ => hbefore g hg
  · rintro ⟨hsame, before, after, hkeys, hbefore⟩
    obtain ⟨front, rest, hgroups, rfl, hrest⟩ := List.map_eq_append_iff.mp hkeys
    obtain ⟨⟨name, ops⟩, back, rfl, rfl, -⟩ := List.map_eq_cons_iff.mp hrest
    exact ⟨ops, hsame .typescript, front, back, hgroups,
      fun g hg => hbefore g.1 (List.mem_map_of_mem hg) .typescript⟩

/-- What is reported, if anything is. -/
def clash? (m : Model) : Option (Operation × String × List Operation) :=
  m.rootOperations.findSome? fun op => (m.clashOf? op).map (op, ·)

theorem services_eq (m : Model) : m.services = match m.clash? with
    | some (op, service, _) =>
      .error (.duplicateMethod defaultService op.id op.extractedId ("service " ++ service))
    | none => .ok m.namedGroups := rfl

theorem clash?_eq_none_iff : m.clash? = none ↔ m.MembersApart := by
  simp only [clash?, List.findSome?_eq_none_iff, Option.map_eq_none_iff, clashOf?_eq_none_iff]
  exact ⟨fun h target op hop s hs => h op hop s hs target, fun h op hop s hs target => h target op hop s hs⟩

theorem clash?_eq_some_iff : (∃ ops, m.clash? = some (op, service, ops)) ↔ m.FirstClash op service := by
  simp only [clash?, List.findSome?_eq_some_iff, Option.map_eq_some_iff, Option.map_eq_none_iff,
    clashOf?_eq_none_iff]
  constructor
  · rintro ⟨ops, before, op', after, hroot, ⟨_, hclash, he⟩, hbefore⟩
    cases he
    obtain ⟨hsame, hservice⟩ := clashOf?_eq_some_iff.mp ⟨ops, hclash⟩
    exact ⟨hsame, ⟨before, after, hroot, hbefore⟩, hservice⟩
  · rintro ⟨hsame, ⟨before, after, hroot, hbefore⟩, hservice⟩
    obtain ⟨ops, hclash⟩ := clashOf?_eq_some_iff.mpr ⟨hsame, hservice⟩
    exact ⟨ops, before, op, after, hroot, ⟨_, hclash, rfl⟩, hbefore⟩

theorem services_eq_ok_iff : m.services = .ok groups ↔ groups = m.namedGroups ∧ m.MembersApart := by
  rw [services_eq, ← clash?_eq_none_iff]
  cases m.clash? with
  | none => simp [eq_comm]
  | some clash => simp

theorem services_eq_error_iff : m.services = .error e ↔ ∃ op service, m.FirstClash op service ∧
    e = .duplicateMethod defaultService op.id op.extractedId ("service " ++ service) := by
  simp only [services_eq, ← clash?_eq_some_iff]
  cases m.clash? with
  | none => simp
  | some clash =>
    obtain ⟨op, service, ops⟩ := clash
    constructor
    · intro he
      exact ⟨op, service, ⟨ops, rfl⟩, (Except.error.inj he).symm⟩
    · rintro ⟨_, _, ⟨_, hclash⟩, rfl⟩
      cases hclash
      rfl

/-- A grouped client is made exactly if no root method has the name of an accessor, in any language. What is
reported otherwise names the first root operation that has, and the first service whose accessor it has: in
every language, as what is told apart in one of them is told apart in all. -/
theorem services_told_apart (m : Model) :
    (∀ groups, m.services = .ok groups ↔ groups = m.namedGroups ∧ m.MembersApart) ∧
    ∀ e, m.services = .error e ↔ ∃ op service, m.FirstClash op service ∧
      e = .duplicateMethod defaultService op.id op.extractedId ("service " ++ service) :=
  ⟨fun _ => services_eq_ok_iff, fun _ => services_eq_error_iff⟩

end Model
end ClientGen
