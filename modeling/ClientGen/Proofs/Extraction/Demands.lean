import ClientGen.Proofs.Extraction.Merging

/-! What the entries of a table demand of every merge that goes into them. A merge reads bodies that are
written in place, and entries as a whole. -/
namespace ClientGen
variable {table : SchemaTable} {path : List String} {b c : SchemaBody} {s : Schema}
  {part : List String × SchemaBody}

/-! ### Bodies in place -/

/-- The schema and those of its parts that are written in place, at any depth. -/
def SchemaBody.inPlace (b : SchemaBody) : List SchemaBody := SchemaTable.flatten [] [] b

namespace SchemaTable
variable {e : Nat × SchemaBody}

theorem mem_parts_nil : part ∈ SchemaTable.parts [] [] b ↔ part.1 = [] ∧ .inline part.2 ∈ b.allOf := by
  rw [mem_parts]
  refine or_iff_left ?_
  rintro ⟨_, _, -, -, -, -, h⟩
  cases h

theorem mem_flatten : c ∈ table.flatten path b ↔
    (∃ part ∈ table.parts path b, c ∈ table.flatten part.1 part.2) ∨ c = b := by
  rw [flatten_eq, List.mem_append, List.mem_flatMap, List.mem_singleton]

theorem mem_spread : e ∈ table.spread path b ↔
    (∃ part ∈ table.parts path b, ∃ e' ∈ table.spread part.1 part.2, e = (e'.1 + 1, e'.2)) ∨ e = (0, b) := by
  rw [spread_eq, List.mem_append, List.mem_flatMap, List.mem_singleton]
  simp only [List.mem_map, eq_comm]

theorem inPlace_subset_flatten {b : SchemaBody} (h : c ∈ b.inPlace) : c ∈ table.flatten path b := by
  rcases mem_flatten.mp h with ⟨part, hpart, hc⟩ | rfl
  · have hless := weight_lt_of_mem_parts hpart
    obtain ⟨hpath, hinline⟩ := mem_parts_nil.mp hpart
    rw [hpath] at hc hless
    have hpart : (path, part.2) ∈ table.parts path _ := mem_parts.mpr (.inl ⟨rfl, hinline⟩)
    exact mem_flatten.mpr (.inl ⟨_, hpart, inPlace_subset_flatten hc⟩)
  · exact mem_flatten.mpr (.inr rfl)
termination_by SchemaTable.weight [] [] b

/-- Every step to a part takes off some of the weight. -/
theorem distance_le {path : List String} {b : SchemaBody} {e : Nat × SchemaBody}
    (h : e ∈ table.spread path b) : e.1 + e.2.depth ≤ table.weight path b := by
  rcases mem_spread.mp h with ⟨part, hpart, e', he', rfl⟩ | rfl
  · have hless := weight_lt_of_mem_parts hpart
    have hrest := distance_le he'
    dsimp only
    omega
  · exact Nat.le_trans (Nat.le_of_eq (Nat.zero_add _)) (Nat.le_add_left ..)
termination_by table.weight path b

/-- A body that a merge reads is in place, or an entry is read with all its parts in place. -/
theorem mem_spread_cases {path : List String} {b : SchemaBody} {e : Nat × SchemaBody}
    (h : e ∈ table.spread path b) : e ∈ SchemaTable.spread [] [] b ∨
    ∃ name target, table.body? name = some target ∧ e.2 ∈ target.inPlace ∧
      ∀ c ∈ target.inPlace, c ∈ table.flatten path b := by
  rcases mem_spread.mp h with ⟨part, hpart, e', he', rfl⟩ | rfl
  · have hless := weight_lt_of_mem_parts hpart
    have hinto {c : SchemaBody} (hc : c ∈ table.flatten part.1 part.2) : c ∈ table.flatten path b :=
      mem_flatten.mpr (.inl ⟨part, hpart, hc⟩)
    rcases mem_spread_cases he' with he' | ⟨name, target, htarget, hc, hall⟩
    · rcases mem_parts.mp hpart with ⟨hpath, hinline⟩ | ⟨_, name, -, -, -, -, htarget⟩
      · exact .inl (mem_spread.mpr (.inl ⟨([], part.2), mem_parts_nil.mpr ⟨rfl, hinline⟩, e', he', rfl⟩))
      · refine .inr ⟨name, part.2, htarget, ?_, fun c hc => hinto (inPlace_subset_flatten hc)⟩
        rw [SchemaBody.inPlace, ← map_spread]
        exact List.mem_map.mpr ⟨e', he', rfl⟩
    · exact .inr ⟨name, target, htarget, hc, fun c hc => hinto (hall c hc)⟩
  · exact .inl (mem_spread.mpr (.inr rfl))
termination_by table.weight path b

end SchemaTable

/-! ### The first declaration -/

section FirstDeclared
variable {es more : List (Nat × SchemaBody)}

theorem firstDeclared_append : firstDeclared (es ++ more) = (firstDeclared es).or (firstDeclared more) :=
  List.findSome?_append

theorem firstDeclared_farther : firstDeclared (es.map fun e => (e.1 + 1, e.2)) =
    (firstDeclared es).map fun d => (d.1 + 1, d.2) := by
  induction es with
  | nil => rfl
  | cons e es ih =>
    rw [List.map_cons, firstDeclared_cons, firstDeclared_cons, ih]
    cases e.2.declared? <;> rfl

theorem map_firstDeclared :
    (firstDeclared es).map Prod.snd = (es.map Prod.snd).findSome? SchemaBody.declared? := by
  induction es with
  | nil => rfl
  | cons e es ih =>
    rw [firstDeclared_cons, List.map_cons, List.findSome?_cons, ← ih]
    cases e.2.declared? <;> rfl

/-- Whether a declaration is the first of an entry and its parts in place. -/
def SchemaTable.Declares (table : SchemaTable) (extra : Option Schema) : Prop :=
  ∃ name target, table.body? name = some target ∧ target.inPlace.findSome? SchemaBody.declared? = some extra

/-- What is declared first where entries are gone into, beside what is declared first in place: nothing if
nothing is, and else the same, or the declaration of an entry. -/
structure SchemaTable.Precedes (table : SchemaTable) (first place : Option (Nat × Option Schema)) : Prop where
  none : first = none → place = none
  some : ∀ d, first = some d → place = some d ∨ table.Declares d.2

namespace SchemaTable.Precedes
variable {first place first' place' : Option (Nat × Option Schema)}

theorem refl (first : Option (Nat × Option Schema)) : table.Precedes first first := ⟨id, fun _ h => .inl h⟩

theorem or (h : table.Precedes first place) (h' : table.Precedes first' place') :
    table.Precedes (first.or first') (place.or place') := by
  cases hfirst : first with
  | none =>
    rw [h.none hfirst, Option.none_or, Option.none_or]
    exact h'
  | some d =>
    refine ⟨nofun, fun d' hd => ?_⟩
    cases hd
    rcases h.some d hfirst with hplace | hentry
    · rw [hplace]
      exact .inl rfl
    · exact .inr hentry

theorem farther (h : table.Precedes first place) :
    table.Precedes (first.map fun d => (d.1 + 1, d.2)) (place.map fun d => (d.1 + 1, d.2)) := by
  cases hfirst : first with
  | none =>
    rw [h.none hfirst]
    exact refl _
  | some d =>
    refine ⟨nofun, fun d' hd => ?_⟩
    cases hd
    rcases h.some d hfirst with hplace | hentry
    · rw [hplace]
      exact .inl rfl
    · exact .inr hentry

/-- All declarations in place of an entry are the entry's. -/
theorem entry {name : String} (hb : table.body? name = Option.some b)
    (h : table.Precedes first (firstDeclared (SchemaTable.spread [] [] b))) :
    table.Precedes first Option.none := by
  refine ⟨fun _ => rfl, fun d hd => .inr ?_⟩
  rcases h.some d hd with hplace | hentry
  · refine ⟨name, b, hb, ?_⟩
    rw [SchemaBody.inPlace, ← map_spread, ← map_firstDeclared, hplace]
    rfl
  · exact hentry

end SchemaTable.Precedes

/-- The bodies below a list of parts, a step farther than from the parts. -/
def SchemaTable.below (table : SchemaTable) (path : List String) (parts : List Schema) :
    List (Nat × SchemaBody) :=
  (parts.filterMap (table.part? path)).flatMap fun part =>
    (table.spread part.1 part.2).map fun e => (e.1 + 1, e.2)

theorem firstDeclared_below_cons {parts : List Schema} :
    firstDeclared (table.below path (s :: parts)) = match table.part? path s with
      | none => firstDeclared (table.below path parts)
      | some part => ((firstDeclared (table.spread part.1 part.2)).map fun d => (d.1 + 1, d.2)).or
          (firstDeclared (table.below path parts)) := by
  rw [SchemaTable.below, List.filterMap_cons]
  cases table.part? path s with
  | none => rfl
  | some part =>
    dsimp only
    rw [List.flatMap_cons, firstDeclared_append, firstDeclared_farther]
    rfl

theorem part?_nil_ref (ref : String) : SchemaTable.part? [] [] (.ref ref) = none := by
  rw [SchemaTable.part?]
  split <;> rfl

theorem precedes_below {parts : List Schema} (h : ∀ s ∈ parts, ∀ part, table.part? path s = some part →
      table.Precedes (firstDeclared (table.spread part.1 part.2))
        (firstDeclared (SchemaTable.spread [] [] part.2))) :
    table.Precedes (firstDeclared (table.below path parts))
      (firstDeclared (SchemaTable.below [] [] parts)) := by
  induction parts with
  | nil => exact .refl _
  | cons s rest ih =>
    obtain ⟨hfirst, hrest⟩ := List.forall_mem_cons.mp h
    rw [firstDeclared_below_cons, firstDeclared_below_cons]
    cases s with
    | inline inner => exact (hfirst (path, inner) rfl).farther.or (ih hrest)
    | ref ref =>
      rw [part?_nil_ref]
      cases hpart : table.part? path (.ref ref) with
      | none => exact ih hrest
      | some part =>
        obtain ⟨name, -, -, -, htarget⟩ := SchemaTable.part?_ref_eq_some.mp hpart
        exact (hfirst part hpart |>.entry htarget).farther.or (ih hrest)

end FirstDeclared

/-- What is declared first is the first declaration in place, or that of an entry. -/
theorem precedes_spread (path : List String) (b : SchemaBody) :
    table.Precedes (firstDeclared (table.spread path b)) (firstDeclared (SchemaTable.spread [] [] b)) := by
  have hspread (table : SchemaTable) (path : List String) :
      table.spread path b = table.below path b.allOf ++ [(0, b)] := table.spread_eq path b
  have hparts : ∀ s ∈ b.allOf, ∀ part, table.part? path s = some part →
      table.Precedes (firstDeclared (table.spread part.1 part.2))
        (firstDeclared (SchemaTable.spread [] [] part.2)) := by
    intro s hs part hpart
    have hless := SchemaTable.weight_lt_of_mem_parts (List.mem_filterMap.mpr ⟨s, hs, hpart⟩)
    exact precedes_spread part.1 part.2
  rw [hspread, hspread, firstDeclared_append, firstDeclared_append]
  exact (precedes_below hparts).or (.refl _)
termination_by table.weight path b

theorem exists_of_firstDeclared {es : List (Nat × SchemaBody)} {k : Nat} {extra : Option Schema}
    (h : firstDeclared es = some (k, extra)) : ∃ c, (k, c) ∈ es ∧ c.declared? = some extra := by
  obtain ⟨⟨k', c⟩, hc, he⟩ := List.exists_of_findSome?_eq_some h
  obtain ⟨extra', hd, he⟩ := Option.map_eq_some_iff.mp he
  cases he
  exact ⟨c, hc, hd⟩

/-! ### Demands -/

/-- What a merge of each entry needs whatever comes before it, and what it needs if nothing before it
declares additional properties. -/
def SchemaTable.demands (table : SchemaTable) : List (List Schema) :=
  table.flatMap fun entry => match entry.2 with
    | .inline b => [b.inPlace.flatMap fun c => c.properties.map Prod.snd,
        (b.inPlace.findSome? SchemaBody.declared?).join.toList]
    | .ref _ => []

theorem SchemaTable.length_demands_le (table : SchemaTable) : table.demands.length ≤ 2 * table.length := by
  induction table with
  | nil => exact Nat.le_refl _
  | cons entry rest ih =>
    rw [demands] at ih ⊢
    rw [List.flatMap_cons, List.length_append, List.length_cons]
    split <;> simp only [List.length_cons, List.length_nil] <;> omega

section Demands
variable {name : String} {target : SchemaBody}

theorem SchemaTable.properties_mem_demands (h : table.body? name = some target) :
    (target.inPlace.flatMap fun c => c.properties.map Prod.snd) ∈ table.demands :=
  List.mem_flatMap.mpr ⟨_, mem_of_body? h, List.mem_cons_self⟩

theorem SchemaTable.declared_mem_demands (h : table.body? name = some target)
    (hd : target.inPlace.findSome? SchemaBody.declared? = some (some s)) : [s] ∈ table.demands := by
  refine List.mem_flatMap.mpr ⟨_, mem_of_body? h, ?_⟩
  simp [hd]

theorem SchemaBody.depth_le_of_inPlace (h : c ∈ b.inPlace) : c.depth ≤ b.depth := by
  rw [inPlace, ← SchemaTable.map_spread] at h
  obtain ⟨e, he, rfl⟩ := List.mem_map.mp h
  have hd := SchemaTable.distance_le he
  simp only [SchemaTable.weight, depthOfMembers] at hd
  omega

theorem SchemaTable.depth_lt_of_demands {t : List Schema} (ht : t ∈ table.demands) (hs : s ∈ t) :
    s.depth < depthOfMembers table := by
  obtain ⟨⟨name, schema⟩, hentry, ht⟩ := List.mem_flatMap.mp ht
  cases schema with
  | ref path => cases ht
  | inline b =>
    have hdepth := depth_le_depthOfMembers hentry
    rw [Schema.depth] at hdepth
    suffices ∃ c ∈ b.inPlace, s ∈ c.children by
      obtain ⟨c, hc, hs⟩ := this
      have hinside := SchemaBody.depth_le hs
      have hplace := SchemaBody.depth_le_of_inPlace hc
      omega
    rcases List.mem_pair.mp ht with rfl | rfl
    · obtain ⟨c, hc, hs⟩ := List.mem_flatMap.mp hs
      obtain ⟨p, hp, rfl⟩ := List.mem_map.mp hs
      exact ⟨c, hc, SchemaBody.mem_children_of_property hp⟩
    · rw [Option.mem_toList, Option.join_eq_some_iff] at hs
      obtain ⟨c, hc, hd⟩ := List.exists_of_findSome?_eq_some hs
      exact ⟨c, hc, SchemaBody.mem_children_of_declared hd⟩

end Demands

end ClientGen
