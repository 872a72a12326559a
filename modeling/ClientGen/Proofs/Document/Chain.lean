import Mathlib.Data.List.Perm.Subperm
import ClientGen.Document.Resolve
import ClientGen.Proofs.Document.Reference
import ClientGen.Proofs.Entries
import ClientGen.Proofs.Outcome

/-! Following references through one section of the components: that it ends, and where. -/
namespace ClientGen.Document
variable {α : Type} {expected : String} {entries : Entries String (RefOr α)} {seen passed : List String}
  {r : RefOr α} {value : α} {result result' : Except ReferenceError α}

/-- The loop with no limit on its steps; `seen` holds the references that it has followed. -/
inductive Chases (expected : String) (entries : Entries String (RefOr α)) :
    List String → RefOr α → Except ReferenceError α → Prop
  | inline seen value : Chases expected entries seen (.inline value) (.ok value)
  | circular {seen path} : path ∈ seen →
    Chases expected entries seen (.ref path) (.error (.circular path))
  | invalid {seen path e} : path ∉ seen → Reference.target expected path = .error e →
    Chases expected entries seen (.ref path) (.error e)
  | missing {seen path name} : path ∉ seen → Reference.target expected path = .ok name →
    Entries.get? entries name = none → Chases expected entries seen (.ref path) (.error (.missing path))
  | next {seen path name r result} : path ∉ seen → Reference.target expected path = .ok name →
    Entries.get? entries name = some r → Chases expected entries (path :: seen) r result →
    Chases expected entries seen (.ref path) result

/-- The references followed so far are distinct and name entries. -/
structure Visited (expected : String) (entries : Entries String (RefOr α)) (seen : List String) :
    Prop where
  distinct : seen.Nodup
  named : ∀ path ∈ seen, ∃ name ∈ Entries.keys entries, path = Reference.toEntry expected name

theorem visited_nil : Visited expected entries [] := ⟨List.nodup_nil, fun _ h => nomatch h⟩

theorem Visited.cons {path name : String} (h : Visited expected entries seen) (hp : path ∉ seen)
    (ht : Reference.target expected path = .ok name) (hg : Entries.get? entries name = some r) :
    Visited expected entries (path :: seen) := by
  refine ⟨List.nodup_cons.mpr ⟨hp, h.distinct⟩, List.forall_mem_cons.mpr ⟨?_, h.named⟩⟩
  exact ⟨name, Entries.exists_get?_iff.mp ⟨r, hg⟩, Reference.eq_toEntry_of_target ht⟩

/-- There are no more references to follow than there are entries. -/
theorem Visited.length_le (h : Visited expected entries seen) : seen.length ≤ entries.length := by
  have hsub : seen ⊆ (Entries.keys entries).map (Reference.toEntry expected) := by
    intro path hp
    obtain ⟨name, hn, rfl⟩ := h.named path hp
    exact List.mem_map_of_mem hn
  simpa [Entries.keys] using (h.distinct.subperm hsub).length_le

/-- The limit is never what stops the loop. -/
theorem chases_followFrom {steps : Nat} (h : Visited expected entries seen)
    (hs : entries.length < seen.length + steps) :
    Chases expected entries seen r (followFrom expected entries steps seen r) := by
  -- A step passes from `steps` to `seen`, and no more than the entries can be seen.
  induction steps generalizing seen r with
  | zero => exact absurd h.length_le (Nat.not_le.mpr hs)
  | succ steps ih =>
    cases r with
    | inline value => exact .inline seen value
    | ref path =>
      rw [followFrom]
      by_cases hp : path ∈ seen
      · simpa only [hp, if_true] using .circular hp
      · simp only [hp, if_false]
        cases ht : Reference.target expected path with
        | error e => exact .invalid hp ht
        | ok name =>
          cases hg : Entries.get? entries name with
          | none => simpa only [ok_bind, hg] using .missing hp ht hg
          | some next =>
            have hc := ih (r := next) (h.cons hp ht hg) (by rw [List.length_cons]; omega)
            simpa only [ok_bind, hg] using .next hp ht hg hc

/-- The loop has at most one result. -/
theorem Chases.unique (h : Chases expected entries seen r result)
    (h' : Chases expected entries seen r result') : result = result' := by
  induction h with
  | inline seen value => cases h'; rfl
  | circular hp => cases h' <;> simp_all
  | invalid hp ht => cases h' <;> simp_all
  | missing hp ht hg => cases h' <;> simp_all
  | next hp ht hg _ ih => cases h' <;> simp_all

/-- The loop ends with one result, which is what following comes to. -/
theorem chases_iff : Chases expected entries [] r result ↔ result = follow expected entries r := by
  have h : Chases expected entries [] r (follow expected entries r) :=
    chases_followFrom visited_nil (by simp)
  exact ⟨fun hr => hr.unique h, fun hr => hr ▸ h⟩

/-- The references on the way to the object that `r` stands for. -/
inductive Chain (expected : String) (entries : Entries String (RefOr α)) :
    RefOr α → List String → α → Prop
  | inline value : Chain expected entries (.inline value) [] value
  | ref {path name next passed value} : path = Reference.toEntry expected name →
    Entries.get? entries name = some next → Chain expected entries next passed value →
    Chain expected entries (.ref path) (path :: passed) value

/-- Links through the section lead to an object, none of them taken twice. -/
def Reaches (expected : String) (entries : Entries String (RefOr α)) (r : RefOr α) (value : α) :
    Prop :=
  ∃ passed, Chain expected entries r passed value ∧ passed.Nodup

theorem Chain.unique {passed' : List String} {value' : α} (h : Chain expected entries r passed value)
    (h' : Chain expected entries r passed' value') : value = value' := by
  induction h generalizing passed' with
  | inline value => cases h'; rfl
  | ref hpath hg _ ih =>
    obtain _ | ⟨hpath', hg', hc'⟩ := h'
    obtain rfl := Reference.toEntry_injective (hpath.symm.trans hpath')
    cases hg.symm.trans hg'
    exact ih hc'

theorem Reaches.unique {value' : α} (h : Reaches expected entries r value)
    (h' : Reaches expected entries r value') : value = value' := by
  obtain ⟨_, hc, _⟩ := h
  obtain ⟨_, hc', _⟩ := h'
  exact hc.unique hc'

theorem reaches_inline (value : α) : Reaches expected entries (.inline value) value :=
  ⟨[], .inline value, List.nodup_nil⟩

/-- What the loop returns is at the end of a chain that avoids the references followed before. -/
theorem Chases.chain (h : Chases expected entries seen r (.ok value)) :
    ∃ passed, Chain expected entries r passed value ∧ passed.Nodup ∧ ∀ path ∈ passed, path ∉ seen := by
  generalize hr : Except.ok value = result at h
  induction h with
  | inline seen value =>
    cases hr
    exact ⟨[], .inline _, List.nodup_nil, fun _ h => nomatch h⟩
  | circular => cases hr
  | invalid => cases hr
  | missing => cases hr
  | next hp ht hg _ ih =>
    obtain ⟨passed, hc, hd, hn⟩ := ih hr
    refine ⟨_, .ref (Reference.eq_toEntry_of_target ht) hg hc,
      List.nodup_cons.mpr ⟨fun hmem => ?_, hd⟩, ?_⟩
    · exact hn _ hmem List.mem_cons_self
    · exact List.forall_mem_cons.mpr ⟨hp, fun path hmem hs => hn path hmem (List.mem_cons_of_mem _ hs)⟩

theorem Chain.chases (he : '/' ∉ expected.toList) (h : Chain expected entries r passed value)
    (hd : passed.Nodup) (hs : ∀ path ∈ passed, path ∉ seen) :
    Chases expected entries seen r (.ok value) := by
  induction h generalizing seen with
  | inline value => exact .inline seen value
  | ref hpath hg _ ih =>
    subst hpath
    obtain ⟨hp, hd⟩ := List.nodup_cons.mp hd
    obtain ⟨hps, hs⟩ := List.forall_mem_cons.mp hs
    refine .next hps (Reference.target_toEntry he _) hg (ih hd fun path hmem => ?_)
    rw [List.mem_cons, not_or]
    exact ⟨fun h => hp (h ▸ hmem), hs path hmem⟩

/-- Following succeeds exactly where links lead to an object. -/
theorem follow_eq_ok (he : '/' ∉ expected.toList) :
    follow expected entries r = .ok value ↔ Reaches expected entries r value := by
  rw [eq_comm, ← chases_iff]
  constructor
  · intro h
    obtain ⟨passed, hc, hd, _⟩ := h.chain
    exact ⟨passed, hc, hd⟩
  · rintro ⟨passed, hc, hd⟩
    exact hc.chases he hd fun _ _ h => nomatch h

end ClientGen.Document
