import ClientGen.Proofs.Extraction.Shape

/-! The parts that a merge goes through. A merge reads the bodies of a schema's parts one after the other,
parts of parts first, and goes into each entry of the table at most once on the way down. -/
namespace ClientGen
variable {table : SchemaTable} {path : List String} {b c : SchemaBody} {s : Schema}
  {part : List String × SchemaBody} {o o' : ObjectShape} {n : Nat}

/-! ### Depth -/

theorem depth_le_depthOfMembers {es : List (String × Schema)} {e : String × Schema} (h : e ∈ es) :
    e.2.depth ≤ depthOfMembers es := by
  induction es with
  | nil => cases h
  | cons e' es ih =>
    rw [depthOfMembers]
    rcases List.mem_cons.mp h with rfl | h
    · exact Nat.le_max_left ..
    · exact Nat.le_trans (ih h) (Nat.le_max_right ..)

theorem depth_le_depthOfParts {parts : List Schema} (h : s ∈ parts) : s.depth ≤ depthOfParts parts := by
  induction parts with
  | nil => cases h
  | cons s' parts ih =>
    rw [depthOfParts]
    rcases List.mem_cons.mp h with rfl | h
    · exact Nat.le_max_left ..
    · exact Nat.le_trans (ih h) (Nat.le_max_right ..)

theorem SchemaBody.depth_le (h : s ∈ b.children) : s.depth ≤ b.depth := by
  obtain ⟨type, format, description, properties, required, additional, items, allOf, oneOf, anyOf, enum,
    const⟩ := b
  have hkeyword : s.depth ≤ depthOfMembers properties ∨ s.depth ≤ depthOfAdditional additional ∨
      s.depth ≤ depthOfItems items ∨ s.depth ≤ depthOfParts allOf ∨ s.depth ≤ depthOfParts oneOf ∨
      s.depth ≤ depthOfParts anyOf := by
    rcases mem_children.mp h with h | h | h | h | h | h
    · obtain ⟨e, he, rfl⟩ := List.mem_map.mp h
      exact .inl (depth_le_depthOfMembers he)
    · cases h
      exact .inr (.inr (.inl (Nat.le_refl _)))
    · exact .inr (.inr (.inr (.inl (depth_le_depthOfParts h))))
    · exact .inr (.inr (.inr (.inr (.inl (depth_le_depthOfParts h)))))
    · exact .inr (.inr (.inr (.inr (.inr (depth_le_depthOfParts h)))))
    · cases additional with
      | absent | flag allowed => cases h
      | schema extra =>
        cases h
        exact .inr (.inl (Nat.le_refl _))
  rw [SchemaBody.depth]
  omega

/-! ### Parts -/

namespace SchemaTable

/-- What a part of `allOf` brings into a merge, with the entries being merged: a schema in place, or an entry
that is not being merged yet. -/
def part? (table : SchemaTable) (path : List String) : Schema → Option (List String × SchemaBody)
  | .inline inner => some (path, inner)
  | .ref ref =>
    match Reference.schemaName? ref with
    | none => none
    | some name => if name ∈ path then none else (table.body? name).map (name :: path, ·)

def parts (table : SchemaTable) (path : List String) (b : SchemaBody) : List (List String × SchemaBody) :=
  b.allOf.filterMap (table.part? path)

/-- How many entries a merge may still go into. -/
def room (table : SchemaTable) (path : List String) : Nat := (Entries.keys table).countP (· ∉ path)

/-- More than the weight of any part. -/
def weight (table : SchemaTable) (path : List String) (b : SchemaBody) : Nat :=
  table.room path * depthOfMembers table + b.depth

theorem part?_ref_eq_some {ref : String} : table.part? path (.ref ref) = some part ↔
    ∃ name, Reference.schemaName? ref = some name ∧ name ∉ path ∧ part.1 = name :: path ∧
      table.body? name = some part.2 := by
  obtain ⟨entries, body⟩ := part
  rw [part?]
  constructor
  · intro h
    split at h
    · cases h
    · rename_i name hname
      split at h
      · cases h
      · rename_i hfree
        obtain ⟨target, htarget, he⟩ := Option.map_eq_some_iff.mp h
        cases he
        exact ⟨name, hname, hfree, rfl, htarget⟩
  · rintro ⟨name, hname, hfree, rfl, htarget⟩
    simp [hname, hfree, htarget]

theorem mem_parts : part ∈ table.parts path b ↔
    (part.1 = path ∧ .inline part.2 ∈ b.allOf) ∨
      ∃ ref name, .ref ref ∈ b.allOf ∧ Reference.schemaName? ref = some name ∧ name ∉ path ∧
        part.1 = name :: path ∧ table.body? name = some part.2 := by
  obtain ⟨entries, body⟩ := part
  rw [parts, List.mem_filterMap]
  constructor
  · rintro ⟨schema, hmem, hpart⟩
    cases schema with
    | inline inner =>
      cases hpart
      exact .inl ⟨rfl, hmem⟩
    | ref ref =>
      obtain ⟨name, hname⟩ := part?_ref_eq_some.mp hpart
      exact .inr ⟨ref, name, hmem, hname⟩
  · rintro (⟨rfl, hmem⟩ | ⟨ref, name, hmem, hname⟩)
    · exact ⟨_, hmem, rfl⟩
    · exact ⟨_, hmem, part?_ref_eq_some.mpr ⟨name, hname⟩⟩

theorem room_cons_lt {name : String} (hn : name ∈ Entries.keys table) (hp : name ∉ path) :
    table.room (name :: path) < table.room path :=
  countP_lt_of_mem (fun k _ hk => by simp_all) hn (by simp) (by simpa using hp)

theorem weight_lt_of_mem_parts (h : part ∈ table.parts path b) :
    table.weight part.1 part.2 < table.weight path b := by
  rw [weight, weight]
  rcases mem_parts.mp h with ⟨hpath, hinline⟩ | ⟨ref, name, -, -, hfree, hpath, htarget⟩
  · have hdepth : (Schema.inline part.2).depth ≤ b.depth :=
      SchemaBody.depth_le (SchemaBody.mem_children_of_part hinline)
    rw [Schema.depth] at hdepth
    rw [hpath]
    omega
  · have hmem := mem_of_body? htarget
    have hdepth := depth_le_depthOfMembers hmem
    have hroom := room_cons_lt (Entries.mem_keys_of_mem hmem) hfree
    have hproduct := Nat.mul_le_mul_right (depthOfMembers table) hroom
    rw [Schema.depth] at hdepth
    rw [Nat.succ_mul] at hproduct
    rw [hpath]
    omega

/-- The bodies that a merge reads, in order: those of the parts, then the schema itself. -/
def flatten (table : SchemaTable) (path : List String) (b : SchemaBody) : List SchemaBody :=
  (table.parts path b).attach.flatMap (fun part => table.flatten part.1.1 part.1.2) ++ [b]
termination_by table.weight path b
decreasing_by exact weight_lt_of_mem_parts part.2

theorem flatten_eq (table : SchemaTable) (path : List String) (b : SchemaBody) :
    table.flatten path b = (table.parts path b).flatMap (fun part => table.flatten part.1 part.2) ++ [b] := by
  rw [flatten, List.flatMap_subtype, List.unattach_attach]
  exact fun _ _ => rfl

/-- The same bodies, each with the number of parts that lead to it. -/
def spread (table : SchemaTable) (path : List String) (b : SchemaBody) : List (Nat × SchemaBody) :=
  (table.parts path b).attach.flatMap
    (fun part => (table.spread part.1.1 part.1.2).map fun e => (e.1 + 1, e.2)) ++ [(0, b)]
termination_by table.weight path b
decreasing_by exact weight_lt_of_mem_parts part.2

theorem spread_eq (table : SchemaTable) (path : List String) (b : SchemaBody) :
    table.spread path b = (table.parts path b).flatMap
      (fun part => (table.spread part.1 part.2).map fun e => (e.1 + 1, e.2)) ++ [(0, b)] := by
  rw [spread, List.flatMap_subtype, List.unattach_attach]
  exact fun _ _ => rfl

theorem map_spread (table : SchemaTable) (path : List String) (b : SchemaBody) :
    (table.spread path b).map Prod.snd = table.flatten path b := by
  rw [spread_eq, flatten_eq, List.map_append, List.map_flatMap]
  refine congrArg (· ++ [b]) (List.flatMap_congr fun part hpart => ?_)
  have hless := weight_lt_of_mem_parts hpart
  rw [List.map_map]
  exact map_spread table part.1 part.2
termination_by table.weight path b

end SchemaTable

namespace SchemaBody

theorem merge?_succ : merge? table (n + 1) path b o =
    ((table.parts path b).foldlM (fun o part => merge? table n part.1 part.2 o) o).bind
      (b.mergeOwn? (Schema.shape? table n)) := by
  rw [merge?, SchemaTable.parts, List.foldlM_filterMap, Option.bind_eq_bind]
  congr 2
  funext o part
  cases part with
  | inline inner => rfl
  | ref ref =>
    dsimp only
    rw [SchemaTable.part?]
    cases Reference.schemaName? ref with
    | none => rfl
    | some name =>
      by_cases hp : name ∈ path
      · simp [hp]
      · simp only [if_neg hp]
        cases table.body? name <;> rfl

/-- A merge puts the bodies over one another, each with the steps that are left when it is reached. -/
theorem merge?_eq_foldlM : merge? table n path b o = (table.spread path b).foldlM
    (fun o e => if e.1 < n then e.2.mergeOwn? (Schema.shape? table (n - 1 - e.1)) o else none) o := by
  induction n generalizing path b o with
  | zero =>
    rw [SchemaTable.spread_eq, List.foldlM_append]
    simp [merge?]
  | succ n ih =>
    have later (o : ObjectShape) (e : Nat × SchemaBody) :
        (if e.1 + 1 < n + 1 then e.2.mergeOwn? (Schema.shape? table (n + 1 - 1 - (e.1 + 1))) o else none) =
          if e.1 < n then e.2.mergeOwn? (Schema.shape? table (n - 1 - e.1)) o else none := by
      have hsteps : n + 1 - 1 - (e.1 + 1) = n - 1 - e.1 := by omega
      simp only [Nat.add_lt_add_iff_right, hsteps]
    rw [merge?_succ, SchemaTable.spread_eq, List.foldlM_append, foldlM_flatMap]
    simp only [ih, List.foldlM_map, later]
    simp

end SchemaBody

end ClientGen
