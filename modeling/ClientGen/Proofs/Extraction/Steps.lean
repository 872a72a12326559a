import ClientGen.Proofs.Extraction.Demands

/-! Enough steps. If any number of them finds the shape of a schema, so does the number that the table allows
for. -/
namespace ClientGen
variable {table : SchemaTable} {b : SchemaBody} {s : Schema} {shape : Shape} {f g : Schema → Option Shape}
  {n : Nat}

theorem SchemaBody.Look.isSome_imp {look : (Schema → Option Shape) → Option Shape} (hl : b.Look look)
    (hfg : ∀ s ∈ b.children, (f s).isSome → (g s).isSome) (h : (look f).isSome) : (look g).isSome := by
  cases hl with
  | known x hx hlook => rw [hlook g]; rfl
  | object hlook =>
    rw [hlook, objectShape?, Option.isSome_map, Option.isSome_map, isSome_mergeOwn?] at h ⊢
    exact ⟨fun p hp => hfg _ (mem_children_of_property hp) (h.1 p hp),
      fun hundeclared s hs => hfg s (mem_children_of_declared hs) (h.2 hundeclared s hs)⟩
  | items hlook =>
    rw [hlook, Option.isSome_map, itemsShape?] at h ⊢
    split at h
    · rename_i s hs
      exact hfg s (mem_children_of_items hs) h
    · rfl

section Demands
variable {k : Nat}
  (hk : ∀ t ∈ table.demands, (∀ s ∈ t, s.isFound table n) → ∀ s ∈ t, s.isFound table k)
include hk

/-- What a merge reads with `n` steps, it reads with enough steps for the demands and for its own levels:
it is in place, or part of a demand. -/
theorem SchemaBody.readable_of_demands {undeclared : Prop}
    (inside : ∀ s : Schema, s.depth ≤ b.depth → s.isFound table n → ∀ j,
      k + table.room [] * depthOfMembers table + 2 * s.depth ≤ j → s.isFound table j)
    (h : Readable table n undeclared (table.spread [] b)) :
    Readable table (k + table.room [] * depthOfMembers table + 2 * b.depth + 1) undeclared
      (table.spread [] b) := by
  generalize hm : k + table.room [] * depthOfMembers table + 2 * b.depth + 1 = m
  have far {e : Nat × SchemaBody} (he : e ∈ table.spread [] b) :
      e.1 ≤ table.room [] * depthOfMembers table + b.depth := by
    have hdistance := SchemaTable.distance_le he
    rw [SchemaTable.weight] at hdistance
    omega
  have placed {e : Nat × SchemaBody} (he : e ∈ SchemaTable.spread [] [] b) {s : Schema}
      (hs : s ∈ e.2.children) (hf : s.isFound table n) : s.isFound table (m - 1 - e.1) := by
    have hless := SchemaBody.depth_le hs
    have hdistance := SchemaTable.distance_le he
    have hweight : SchemaTable.weight [] [] b = b.depth := by simp [SchemaTable.weight, depthOfMembers]
    exact inside s (by omega) hf _ (by omega)
  have now {j : Nat} {s : Schema} (hf : s.isFound table (n - 1 - j)) : s.isFound table n :=
    Schema.isFound_mono hf (by omega)
  refine ⟨fun e he => ?_, fun e he p hp => ?_, fun hundeclared j s hfirst => ?_⟩
  · have hfar := far he
    omega
  · have hfar := far he
    rcases SchemaTable.mem_spread_cases he with hplace | ⟨name, target, htarget, hc, hall⟩
    · exact placed hplace (mem_children_of_property hp) (now (h.properties e he p hp))
    · have hmet := hk _ (SchemaTable.properties_mem_demands htarget)
      refine Schema.isFound_mono (hmet (fun s hs => ?_) p.2 ?_) (by omega)
      · obtain ⟨c, hc, hs⟩ := List.mem_flatMap.mp hs
        obtain ⟨q, hq, rfl⟩ := List.mem_map.mp hs
        have hc := hall c hc
        rw [← SchemaTable.map_spread] at hc
        obtain ⟨e', he', rfl⟩ := List.mem_map.mp hc
        exact now (h.properties e' he' q hq)
      · exact List.mem_flatMap.mpr ⟨e.2, hc, List.mem_map_of_mem hp⟩
  · have hfound := now (h.additional hundeclared j s hfirst)
    rcases (precedes_spread [] b).some _ hfirst with hplace | ⟨name, target, htarget, hd⟩
    · obtain ⟨c, hc, hd⟩ := exists_of_firstDeclared hplace
      exact placed hc (mem_children_of_declared hd) hfound
    · obtain ⟨c, hc, -⟩ := exists_of_firstDeclared hfirst
      have hfar := far hc
      have hmet := hk _ (SchemaTable.declared_mem_demands htarget hd)
      refine Schema.isFound_mono (hmet (fun s' hs' => ?_) s (List.mem_singleton_self s)) (by omega)
      rwa [List.mem_singleton.mp hs']

/-- If every demand that is met with `n` steps is met with `k` steps, a schema that needs one step more gets
by with `k` steps, those through entries of the table, and two for each of its own levels. -/
theorem Schema.isFound_of_demands (h : s.isFound table (n + 1)) :
    s.isFound table (k + table.room [] * depthOfMembers table + 2 * s.depth) := by
  induction hdepth : s.depth using Nat.strongRecOn generalizing s with
  | _ depth ih =>
    cases s with
    | ref path =>
      cases hdepth
      rfl
    | inline b =>
      have hb : b.depth + 1 = depth := hdepth
      -- A schema within is found, if it is reached in time.
      have inside (s : Schema) (hs : s.depth ≤ b.depth) (hf : s.isFound table n) (j : Nat)
          (hj : k + table.room [] * depthOfMembers table + 2 * s.depth ≤ j) : s.isFound table j :=
        isFound_mono (ih s.depth (by omega) (isFound_mono hf (Nat.le_succ n)) rfl) hj
      have child (s : Schema) (hs : s ∈ b.children) (hf : s.isFound table n) :
          s.isFound table (k + table.room [] * depthOfMembers table + 2 * b.depth + 1) := by
        have hless := SchemaBody.depth_le hs
        exact inside s hless hf _ (by omega)
      have hsteps : k + table.room [] * depthOfMembers table + 2 * depth =
          k + table.room [] * depthOfMembers table + 2 * b.depth + 1 + 1 := by omega
      rw [hsteps]
      rw [isFound] at h ⊢
      rcases shape?_inline table b with ⟨look, hlook, he⟩ | ⟨s, hs, he⟩ | ⟨-, he⟩
      · rw [he] at h ⊢
        exact hlook.isSome_imp child h
      · rw [he] at h ⊢
        exact child s hs h
      · rw [he, Option.isSome_map, SchemaBody.isSome_merge?_iff] at h ⊢
        exact SchemaBody.readable_of_demands hk inside h

end Demands

theorem SchemaTable.room_le (table : SchemaTable) : table.room [] ≤ table.length := by
  have hcount : table.room [] ≤ (Entries.keys table).length := List.countP_le_length
  rwa [Entries.keys, List.length_map] at hcount

/-- At most one round for each demand, and a last one for the schema itself. -/
theorem SchemaTable.rounds_le_steps {i depth : Nat} (hi : i ≤ table.demands.length) :
    i * (table.room [] * depthOfMembers table + 2 * depthOfMembers table) +
      table.room [] * depthOfMembers table + 2 * depth ≤ table.steps depth := by
  have hdemands := Nat.le_trans hi table.length_demands_le
  generalize hdeepest : max depth (depthOfMembers table) + 2 = deepest
  have hmembers : depthOfMembers table ≤ deepest := by omega
  have hself : depth ≤ deepest := by omega
  have hjumps : table.room [] * depthOfMembers table ≤ table.length * deepest :=
    Nat.mul_le_mul table.room_le hmembers
  have htwo : (table.length + 2) * deepest = table.length * deepest + 2 * deepest := Nat.add_mul ..
  have hround : table.room [] * depthOfMembers table + 2 * depthOfMembers table ≤
      (table.length + 2) * deepest := by omega
  calc i * (table.room [] * depthOfMembers table + 2 * depthOfMembers table) +
        table.room [] * depthOfMembers table + 2 * depth
      ≤ 2 * table.length * ((table.length + 2) * deepest) + (table.length + 2) * deepest := by
        have hrounds := Nat.mul_le_mul hdemands hround
        omega
    _ = (2 * table.length + 1) * ((table.length + 2) * deepest) := (Nat.succ_mul ..).symm
    _ ≤ 2 * (table.length + 2) * ((table.length + 2) * deepest) := Nat.mul_le_mul_right _ (by omega)
    _ = table.steps depth := by rw [← Nat.mul_assoc, SchemaTable.steps, hdeepest]

/-- If any number of steps finds a shape, so does the number that the table allows for. -/
theorem Schema.isFound_steps (h : s.isFound table n) : s.isFound table (table.steps s.depth) := by
  generalize hround : table.room [] * depthOfMembers table + 2 * depthOfMembers table = round
  obtain ⟨i, hi, hhalt⟩ := exists_halt (p := fun i t => t.all fun s => s.isFound table (i * round))
    (fun i t ht => by
      rw [List.all_eq_true] at ht ⊢
      exact fun s hs => isFound_mono (ht s hs) (Nat.mul_le_mul_right round (Nat.le_succ i))) table.demands
  -- No demand is met later than after `i` rounds.
  have met (n : Nat) : ∀ t ∈ table.demands, (∀ s ∈ t, s.isFound table n) →
      ∀ s ∈ t, s.isFound table (i * round) := by
    induction n with
    | zero => exact fun t _ hall s hs => nomatch hall s hs
    | succ n ih =>
      intro t ht hall
      have later : ∀ s ∈ t, s.isFound table ((i + 1) * round) := by
        intro s hs
        have hdepth := SchemaTable.depth_lt_of_demands ht hs
        have hnext : (i + 1) * round = i * round + round := Nat.succ_mul i round
        exact isFound_mono (isFound_of_demands ih (hall s hs)) (by omega)
      exact List.all_eq_true.mp (hhalt t ht (List.all_eq_true.mpr later))
  obtain _ | n := n
  · cases h
  · have hfound := isFound_of_demands (met n) h
    refine isFound_mono hfound ?_
    rw [← hround]
    exact SchemaTable.rounds_le_steps hi

theorem Schema.shape_eq_of_shape? (h : s.shape? table n = some shape) : s.shape table = shape := by
  have hfound := isFound_steps (Option.isSome_iff_exists.mpr ⟨shape, h⟩ : s.isFound table n)
  obtain ⟨x, hx⟩ := Option.isSome_iff_exists.mp hfound
  rw [Schema.shape, hx, shape?_unique h hx]
  rfl

end ClientGen
