import ClientGen.Proofs.Extraction.Chain

/-! When the shape of a schema is found at all. A merge passes over the entries that it is in already, so it
never goes round along `allOf`. It can go round below the members of an entry, if one of them merges that
entry again: there, nothing is passed over. -/
namespace ClientGen
variable {table : SchemaTable} {b c : SchemaBody} {s t u : Schema} {f : Schema → Option Shape}
  {name outer inner : String}

/-! ### Within a schema -/

/-- Whether a schema is another one, or is written in it at any depth. -/
inductive Schema.Inside : Schema → Schema → Prop
  | refl (s : Schema) : Inside s s
  | child {s t : Schema} {b : SchemaBody} : t ∈ b.children → Inside s t → Inside s (.inline b)

/-- What a merge looks at: the schemas of the properties and of the additional properties. -/
def SchemaBody.members (b : SchemaBody) : List Schema :=
  b.properties.map Prod.snd ++ b.additional.schema?.toList

theorem Schema.Inside.trans (h : s.Inside t) (h' : t.Inside u) : s.Inside u := by
  induction h' with
  | refl => exact h
  | child hmem _ ih => exact .child hmem ih

theorem Schema.Inside.exists_child (h : (inline c).Inside (.inline b)) (hs : s ∈ c.children) :
    ∃ t ∈ b.children, s.Inside t := by
  cases h with
  | refl => exact ⟨s, hs, .refl s⟩
  | child hmem hin => exact ⟨_, hmem, Schema.Inside.trans (.child hs (.refl s)) hin⟩

theorem SchemaBody.mem_members : s ∈ b.members ↔
    (∃ p ∈ b.properties, p.2 = s) ∨ b.declared? = some (some s) := by
  rw [members, List.mem_append, List.mem_map, Option.mem_toList, schema?_eq_some_iff]

theorem SchemaBody.mem_children_of_member (h : s ∈ b.members) : s ∈ b.children := by
  rcases mem_members.mp h with ⟨p, hp, rfl⟩ | hdeclared
  · exact mem_children_of_property hp
  · exact mem_children_of_declared hdeclared

theorem SchemaBody.Look.isSome {look : (Schema → Option Shape) → Option Shape} (hl : b.Look look)
    (h : ∀ s ∈ b.children, (f s).isSome) : (look f).isSome := by
  cases hl with
  | known x hx hlook => rw [hlook]; rfl
  | object hlook =>
    rw [hlook, objectShape?, Option.isSome_map, Option.isSome_map, isSome_mergeOwn?]
    exact ⟨fun p hp => h p.2 (mem_children_of_property hp), fun _ s hs => h s (mem_children_of_declared hs)⟩
  | items hlook =>
    rw [hlook, Option.isSome_map, itemsShape?]
    split
    · rename_i s hs
      exact h s (mem_children_of_items hs)
    · rfl

namespace SchemaTable

/-! ### What is merged again -/

/-- Whether a merge of the schema goes into the entry: a schema on the chain has it as a part. -/
def Enters (table : SchemaTable) (b : SchemaBody) (name : String) : Prop :=
  ∃ c ref a, table.OnChain b c ∧ .ref ref ∈ c.allOf ∧ Reference.schemaName? ref = some name ∧
    table.body? name = some a

/-- Whether the inner entry is merged below a member of the outer one, or of a schema on its chain. -/
def Remerges (table : SchemaTable) (outer inner : String) : Prop :=
  ∃ a c s b, table.body? outer = some a ∧ table.OnChain a c ∧ s ∈ c.members ∧
    Schema.Inside (.inline b) s ∧ table.Enters b inner

/-- A schema on the chain is written in the first one, or is on the chain of an entry that is gone into. -/
theorem onChain_cases (h : table.OnChain b c) : Schema.Inside (.inline c) (.inline b) ∨
    ∃ name a, table.Enters b name ∧ table.body? name = some a ∧ table.OnChain a c := by
  induction h with
  | refl => exact .inl (.refl _)
  | @tail m d hm hstep ih =>
    rcases ih with hin | ⟨name, a, henters, ha, hchain⟩
    · cases hstep with
      | inline hmem =>
        have hchild : Schema.inline d ∈ m.children := SchemaBody.mem_children_of_part hmem
        exact .inl (Schema.Inside.trans (.child hchild (.refl _)) hin)
      | entry hmem hname hbody => exact .inr ⟨_, d, ⟨m, _, d, hm, hmem, hname, hbody⟩, hbody, .refl⟩
    · exact .inr ⟨name, a, henters, ha, hchain.tail hstep⟩

theorem Enters.mem_keys (h : table.Enters b name) : name ∈ Entries.keys table := by
  obtain ⟨_, _, a, -, -, -, ha⟩ := h
  exact Entries.mem_keys_of_mem (mem_of_body? ha)

/-- Where no entry is merged again below itself, fewer and fewer entries are left to be merged. -/
theorem wellFounded_remerges (h : ∀ name, ¬Relation.TransGen table.Remerges name name) :
    WellFounded fun inner outer => table.Remerges outer inner := by
  classical
  let below (name : String) : Nat :=
    (Entries.keys table).countP fun other => decide (Relation.TransGen table.Remerges name other)
  have fewer {inner outer : String} (hr : table.Remerges outer inner) : below inner < below outer := by
    obtain ⟨_, _, _, _, -, -, -, -, henters⟩ := id hr
    refine countP_lt_of_mem (fun other _ hother => ?_) henters.mem_keys ?_ ?_
    · exact decide_eq_true (.head hr (of_decide_eq_true hother))
    · exact decide_eq_false (h inner)
    · exact decide_eq_true (.single hr)
  exact Subrelation.wf fewer (measure below).wf

/-! ### What ends -/

/-- Whether any number of steps finds the shape of the schema. -/
def Ends (table : SchemaTable) (s : Schema) : Prop := ∃ n, s.isFound table n

/-- Whether a merge ends that goes into the entry, as far as the entry is concerned. -/
def Settled (table : SchemaTable) (name : String) : Prop :=
  ∀ a c, table.body? name = some a → table.OnChain a c → ∀ s ∈ c.members, table.Ends s

/-- Schemas that are found are found with a common number of steps. -/
theorem exists_isFound_all {schemas : List Schema} (h : ∀ s ∈ schemas, table.Ends s) :
    ∃ n, ∀ s ∈ schemas, s.isFound table n := by
  induction schemas with
  | nil => exact ⟨0, nofun⟩
  | cons s rest ih =>
    obtain ⟨⟨n, hs⟩, hrest⟩ := List.forall_mem_cons.mp h
    obtain ⟨m, hm⟩ := ih hrest
    refine ⟨max n m, List.forall_mem_cons.mpr ⟨Schema.isFound_mono hs (Nat.le_max_left ..), fun t ht => ?_⟩⟩
    exact Schema.isFound_mono (hm t ht) (Nat.le_max_right ..)

/-- A merge ends if all that it looks at ends, however its parts refer to one another. -/
theorem ends_of_merges (hb : b.Merges) (h : ∀ c, table.OnChain b c → ∀ s ∈ c.members, table.Ends s) :
    table.Ends (.inline b) := by
  obtain ⟨n, hn⟩ : ∃ n, ∀ s ∈ (table.flatten [] b).flatMap SchemaBody.members, s.isFound table n := by
    refine exists_isFound_all fun s hs => ?_
    obtain ⟨c, hc, hs⟩ := List.mem_flatMap.mp hs
    exact h c (mem_flatten_nil_iff.mp hc) s hs
  have found {e : Nat × SchemaBody} (he : e ∈ table.spread [] b) {s : Schema} (hs : s ∈ e.2.members) :
      s.isFound table n := by
    refine hn s (List.mem_flatMap.mpr ⟨e.2, ?_, hs⟩)
    rw [← map_spread]
    exact List.mem_map_of_mem he
  have readable : Readable table (n + table.weight [] b + 1) True (table.spread [] b) := by
    refine ⟨fun e he => ?_, fun e he p hp => ?_, fun _ k s hfirst => ?_⟩
    · have hdistance := distance_le he
      omega
    · have hdistance := distance_le he
      exact Schema.isFound_mono (found he (SchemaBody.mem_members.mpr (.inl ⟨p, hp, rfl⟩))) (by omega)
    · obtain ⟨c, hc, hdeclared⟩ := exists_of_firstDeclared hfirst
      have hdistance := distance_le hc
      exact Schema.isFound_mono (found hc (SchemaBody.mem_members.mpr (.inr hdeclared))) (by omega)
  refine ⟨n + table.weight [] b + 1 + 1, ?_⟩
  rw [Schema.isFound, Schema.shape?_of_merges hb, Option.isSome_map, SchemaBody.isSome_merge?_iff]
  simpa [ObjectShape.empty] using readable

/-- A merge that meets the same schema again, as a property on its own chain, never ends. -/
theorem not_ends_of_mem_chain (hb : b.Merges) (hc : table.OnChain b c)
    (hp : (name, .inline b) ∈ c.properties) : ¬table.Ends (.inline b) := by
  rintro ⟨n, hn⟩
  induction n using Nat.strongRecOn with
  | _ n ih =>
    obtain _ | n := n
    · cases hn
    · rw [Schema.isFound, Schema.shape?_of_merges hb, Option.isSome_map, SchemaBody.isSome_merge?_iff] at hn
      obtain ⟨e, he, rfl⟩ : ∃ e ∈ table.spread [] b, e.2 = c := by
        rw [← mem_flatten_nil_iff, ← map_spread] at hc
        exact List.mem_map.mp hc
      -- It would be found with fewer steps.
      exact ih (n - 1 - e.1) (by omega) (hn.properties e he _ hp)

/-- A schema ends if the entries are settled that merges within it go into. -/
theorem ends_of_settled
    (h : ∀ b name, Schema.Inside (.inline b) s → table.Enters b name → table.Settled name) :
    ∀ t, t.Inside s → table.Ends t := by
  induction s using Schema.induct with
  | ref path =>
    rintro _ ⟨⟩
    exact ⟨1, rfl⟩
  | inline b ih =>
    have within (s : Schema) (hs : s ∈ b.children) (t : Schema) (ht : t.Inside s) : table.Ends t :=
      ih s hs (fun c name hc => h c name (.child hs hc)) t ht
    have whole : table.Ends (.inline b) := by
      rcases Schema.shape?_inline table b with ⟨look, hlook, he⟩ | ⟨s, hs, he⟩ | ⟨hb, -⟩
      · obtain ⟨n, hn⟩ := exists_isFound_all fun s hs => within s hs s (.refl s)
        refine ⟨n + 1, ?_⟩
        rw [Schema.isFound, he]
        exact hlook.isSome hn
      · obtain ⟨n, hn⟩ := within s hs s (.refl s)
        refine ⟨n + 1, ?_⟩
        rw [Schema.isFound, he]
        exact hn
      · -- What a merge looks at is written within the schema, or is left to an entry that is settled.
        refine ends_of_merges hb fun c hc s hs => ?_
        rcases onChain_cases hc with hin | ⟨name, a, henters, ha, hchain⟩
        · obtain ⟨t, ht, hst⟩ := hin.exists_child (SchemaBody.mem_children_of_member hs)
          exact within t ht s hst
        · exact h b name (.refl _) henters a c ha hchain s hs
    intro t ht
    cases ht with
    | refl => exact whole
    | child hs ht => exact within _ hs t ht

/-- By induction on the entries that are left to be merged again below an entry. -/
theorem settled_of_acyclic (h : ∀ name, ¬Relation.TransGen table.Remerges name name) (name : String) :
    table.Settled name := by
  induction name using (wellFounded_remerges h).induction with
  | _ outer ih =>
    intro a c ha hc s hs
    refine ends_of_settled (fun b inner hin henters => ?_) s (.refl s)
    exact ih inner ⟨a, c, s, b, ha, hc, hs, hin, henters⟩

/-- The shape of every schema is found, with the number of steps that is tried, unless an entry merges itself
again below one of its own members. Along `allOf` alone, entries may refer to one another as they like. -/
theorem shape_found_of_acyclic :
    ((∀ name, ¬Relation.TransGen table.Remerges name name) →
      ∀ s : Schema, s.isFound table (table.steps s.depth)) ∧
    ∀ b : SchemaBody, b.Merges → (∀ c, table.OnChain b c → ∀ s ∈ c.members, table.Ends s) →
      table.Ends (.inline b) := by
  refine ⟨fun h s => ?_, fun b hb => ends_of_merges hb⟩
  obtain ⟨n, hn⟩ := ends_of_settled (fun b name _ _ => settled_of_acyclic h name) s (.refl s)
  exact Schema.isFound_steps hn

/-- A set of schemas that is closed under parts contains the chains that start in it. -/
theorem mem_of_onChain {bodies : List SchemaBody}
    (hclosed : ∀ c ∈ bodies, (table.parts [] c).map Prod.snd ⊆ bodies) (hb : b ∈ bodies)
    (h : table.OnChain b c) : c ∈ bodies := by
  induction h with
  | refl => exact hb
  | @tail m d _ hstep ih =>
    suffices ∃ part ∈ table.parts [] m, part.2 = d from hclosed m ih (List.mem_map.mpr this)
    cases hstep with
    | inline hmem => exact ⟨([], d), mem_parts.mpr (.inl ⟨rfl, hmem⟩), rfl⟩
    | @entry ref name _ hmem hname hbody =>
      exact ⟨([name], d), mem_parts.mpr (.inr ⟨ref, name, hmem, hname, nofun, rfl, hbody⟩), rfl⟩

end SchemaTable

/-! ### Entries that merge themselves and each other -/

/-- Refers back to `Node`, which is no merge. -/
def leafEntry : SchemaBody :=
  { SchemaBody.empty with properties := [("parent", .ref "#/components/schemas/Node")] }

/-- Merges `Leaf`. -/
def leafOfNode : SchemaBody :=
  { SchemaBody.empty with allOf := [.ref "#/components/schemas/Leaf"], required := ["parent"] }

/-- Merges itself, both at once and by way of `Base`. A member merges `Leaf`. -/
def nodeEntry : SchemaBody :=
  { SchemaBody.empty with
    allOf := [.ref "#/components/schemas/Base", .ref "#/components/schemas/Node"]
    properties := [("leaf", .inline leafOfNode)] }

def baseEntry : SchemaBody := { SchemaBody.empty with allOf := [.ref "#/components/schemas/Node"] }

def loops : SchemaTable :=
  [("Leaf", .inline leafEntry), ("Base", .inline baseEntry), ("Node", .inline nodeEntry)]

theorem loops_parts : loops.parts [] leafEntry = [] ∧ loops.parts [] leafOfNode = [(["Leaf"], leafEntry)] ∧
    loops.parts [] nodeEntry = [(["Base"], baseEntry), (["Node"], nodeEntry)] ∧
    loops.parts [] baseEntry = [(["Node"], nodeEntry)] := ⟨rfl, rfl, rfl, rfl⟩

/-- The only schema in place below a member of an entry. -/
theorem loops_below {a : SchemaBody} (ha : loops.body? outer = some a) (hc : loops.OnChain a c)
    (hs : s ∈ c.members) (hin : Schema.Inside (.inline b) s) : outer ≠ "Leaf" ∧ b = leafOfNode := by
  obtain ⟨hleaf, -, hnode, hbase⟩ := loops_parts
  have hentry := SchemaTable.mem_of_body? ha
  simp only [loops, List.mem_cons, Prod.mk.injEq, Schema.inline.injEq, List.not_mem_nil, or_false] at hentry
  rcases hentry with ⟨rfl, rfl⟩ | hentry
  · have hchain : c ∈ [leafEntry] := SchemaTable.mem_of_onChain (by simp [hleaf]) (by simp) hc
    obtain rfl := List.mem_singleton.mp hchain
    obtain rfl := List.mem_singleton.mp hs
    cases hin
  · have hchain : c ∈ [baseEntry, nodeEntry] := by
      refine SchemaTable.mem_of_onChain (by simp [hnode, hbase]) ?_ hc
      rcases hentry with ⟨-, rfl⟩ | ⟨-, rfl⟩ <;> simp
    have houter : outer ≠ "Leaf" := by
      rcases hentry with ⟨rfl, -⟩ | ⟨rfl, -⟩ <;> decide
    rcases List.mem_pair.mp hchain with rfl | rfl
    · cases hs
    · obtain rfl := List.mem_singleton.mp hs
      rcases hin with _ | ⟨ht, hin⟩
      · exact ⟨houter, rfl⟩
      · obtain rfl := List.mem_singleton.mp ht
        cases hin

theorem loops_remerges (h : loops.Remerges outer inner) : outer ≠ "Leaf" ∧ inner = "Leaf" := by
  obtain ⟨a, c, s, b, ha, hc, hs, hin, d, ref, _, hd, href, hname, -⟩ := h
  obtain ⟨houter, rfl⟩ := loops_below ha hc hs hin
  have hchain : d ∈ [leafOfNode, leafEntry] :=
    SchemaTable.mem_of_onChain (by simp [loops_parts]) (by simp) hd
  refine ⟨houter, ?_⟩
  rcases List.mem_pair.mp hchain with rfl | rfl
  · cases List.mem_singleton.mp href
    exact (Option.some.inj hname).symm
  · cases href

/-- `Node` and `Base` merge each other, and `Node` merges `Leaf` again, but nothing merges itself again. -/
theorem SchemaTable.shape_found_of_acyclic_loops :
    loops.OnChain nodeEntry baseEntry ∧ loops.OnChain baseEntry nodeEntry ∧
      loops.Remerges "Node" "Leaf" ∧ (∀ name, ¬Relation.TransGen loops.Remerges name name) ∧
      ∀ s : Schema, s.isFound loops (loops.steps s.depth) := by
  have hpart : loops.Part nodeEntry baseEntry := .entry List.mem_cons_self rfl rfl
  have hback : loops.Part baseEntry nodeEntry := .entry List.mem_cons_self rfl rfl
  have hremerges : loops.Remerges "Node" "Leaf" :=
    ⟨nodeEntry, nodeEntry, _, leafOfNode, rfl, .refl, List.mem_cons_self, .refl _, leafOfNode, _, leafEntry,
      .refl, List.mem_cons_self, rfl, rfl⟩
  have hacyclic (name : String) : ¬Relation.TransGen loops.Remerges name name := by
    have leads {other : String} (h : Relation.TransGen loops.Remerges name other) :
        name ≠ "Leaf" ∧ other = "Leaf" := by
      induction h with
      | single h => exact loops_remerges h
      | tail _ h ih => exact ⟨ih.1, (loops_remerges h).2⟩
    exact fun h => (leads h).1 (leads h).2
  exact ⟨.single hpart, .single hback, hremerges, hacyclic, shape_found_of_acyclic.1 hacyclic⟩

end ClientGen
