import ClientGen.Proofs.Extraction.Flattening

/-! What a merge reads. It succeeds if what it reads is found in time, and more steps never change the shape
that is found. -/
namespace ClientGen
variable {table : SchemaTable} {path : List String} {b : SchemaBody} {s : Schema} {shape : Shape}
  {f g : Schema → Option Shape} {o o' : ObjectShape} {n m : Nat}

namespace SchemaBody

/-! ### What a body reads -/

/-- A declaration of additional properties, if there is one: of anything, or of a schema. -/
def declared? (b : SchemaBody) : Option (Option Schema) :=
  match b.additional with
  | .flag true => some none
  | .schema s => some (some s)
  | _ => none

theorem schema?_eq_some_iff : b.additional.schema? = some s ↔ b.declared? = some (some s) := by
  rw [declared?]
  cases b.additional with
  | absent => simp [Additional.schema?]
  | flag allowed => cases allowed <;> simp [Additional.schema?]
  | schema s => simp [Additional.schema?]

theorem mergeAdditional?_eq_some {extra : Option Shape} : b.mergeAdditional? f o = some extra ↔
    match o.additional, b.declared? with
    | some a, _ => extra = some a
    | none, none => extra = none
    | none, some none => extra = some .unknown
    | none, some (some s) => ∃ x, f s = some x ∧ extra = some x := by
  rw [mergeAdditional?, declared?]
  cases o.additional with
  | some a => simp [eq_comm]
  | none =>
    cases b.additional with
    | absent => simp [eq_comm]
    | flag allowed => cases allowed <;> simp [eq_comm]
    | schema s => simp [Option.map_eq_some_iff, eq_comm]

/-- The first declaration of additional properties stays. -/
theorem additional_mergeOwn? (h : b.mergeOwn? f o = some o') :
    o'.additional = none ↔ o.additional = none ∧ b.declared? = none := by
  obtain ⟨-, ha, -⟩ := mergeOwn?_eq_some.mp h
  rw [mergeAdditional?_eq_some] at ha
  split at ha <;> simp_all
  obtain ⟨x, -, hx⟩ := ha
  simp [hx]

theorem mergeOwn?_imp (hp : ∀ p ∈ b.properties, ∀ x, f p.2 = some x → g p.2 = some x)
    (ha : ∀ s, b.declared? = some (some s) → ∀ x, f s = some x → g s = some x)
    (h : b.mergeOwn? f o = some o') : b.mergeOwn? g o = some o' := by
  obtain ⟨hprops, hextra, hrequired⟩ := mergeOwn?_eq_some.mp h
  refine mergeOwn?_eq_some.mpr ⟨foldlM_imp (fun p hmem ps ps' hstep => ?_) hprops, ?_, hrequired⟩
  · obtain ⟨x, hx, rfl⟩ := Option.map_eq_some_iff.mp hstep
    rw [hp p hmem x hx]
    rfl
  · rw [mergeAdditional?_eq_some] at hextra ⊢
    split at hextra
    · exact hextra
    · exact hextra
    · exact hextra
    · rename_i s _ hs
      obtain ⟨x, hx, he⟩ := hextra
      exact ⟨x, ha s hs x hx, he⟩

/-- A body can be merged if its properties can be read, and its additional properties unless these are
declared already. -/
theorem isSome_mergeOwn? : (b.mergeOwn? f o).isSome ↔
    (∀ p ∈ b.properties, (f p.2).isSome) ∧
      (o.additional = none → ∀ s, b.declared? = some (some s) → (f s).isSome) := by
  have properties (ps : List (String × Shape)) : (b.properties.foldlM
      (fun ps member => (f member.2).map (Entries.put ps member.1)) ps).isSome ↔
        ∀ p ∈ b.properties, (f p.2).isSome := by
    induction b.properties generalizing ps with
    | nil => simp
    | cons p rest ih => cases hp : f p.2 <;> simp [hp, ih]
  have additional : (b.mergeAdditional? f o).isSome ↔
      (o.additional = none → ∀ s, b.declared? = some (some s) → (f s).isSome) := by
    rw [Option.isSome_iff_exists]
    simp only [mergeAdditional?_eq_some]
    cases o.additional with
    | some a => simp
    | none =>
      cases b.declared? with
      | none => simp
      | some extra => cases extra <;> simp [Option.isSome_iff_exists]
  rw [← properties o.properties, ← additional, Option.isSome_iff_exists]
  simp only [mergeOwn?_eq_some]
  constructor
  · rintro ⟨o', hp, ha, -⟩
    exact ⟨Option.isSome_iff_exists.mpr ⟨_, hp⟩, Option.isSome_iff_exists.mpr ⟨_, ha⟩⟩
  · rintro ⟨hp, ha⟩
    obtain ⟨ps, hp⟩ := Option.isSome_iff_exists.mp hp
    obtain ⟨extra, ha⟩ := Option.isSome_iff_exists.mp ha
    exact ⟨⟨ps, _, extra⟩, hp, ha, rfl⟩

theorem mem_children_of_declared (h : b.declared? = some (some s)) : s ∈ b.children :=
  mem_children.mpr (.inr (.inr (.inr (.inr (.inr (schema?_eq_some_iff.mpr h))))))

theorem Look.imp {look : (Schema → Option Shape) → Option Shape} (hl : b.Look look)
    (hfg : ∀ s ∈ b.children, ∀ x, f s = some x → g s = some x) (h : look f = some shape) :
    look g = some shape := by
  cases hl with
  | known x hx hlook => rw [hlook g, ← hlook f, h]
  | object hlook =>
    obtain ⟨o, ho, rfl⟩ := Option.map_eq_some_iff.mp ((hlook f).symm.trans h)
    obtain ⟨merged, hm, rfl⟩ := Option.map_eq_some_iff.mp ho
    have hg := mergeOwn?_imp (fun p hp => hfg p.2 (mem_children_of_property hp))
      (fun s hs => hfg s (mem_children_of_declared hs)) hm
    rw [hlook g, objectShape?, hg]
    rfl
  | items hlook =>
    obtain ⟨item, hi, rfl⟩ := Option.map_eq_some_iff.mp ((hlook f).symm.trans h)
    have hg : b.itemsShape? g = some item := by
      rw [itemsShape?] at hi ⊢
      split at hi
      · rename_i s hs
        exact hfg s (mem_children_of_items hs) item hi
      · exact hi
    rw [hlook g, hg]
    rfl

end SchemaBody

/-! ### More steps -/

theorem SchemaBody.merge?_imp
    (hfg : ∀ k < n, ∀ (s : Schema) x, s.shape? table k = some x → s.shape? table (m - n + k) = some x)
    (hle : n ≤ m) (h : merge? table n path b o = some o') : merge? table m path b o = some o' := by
  rw [merge?_eq_foldlM] at h ⊢
  refine foldlM_imp (fun e _ o o' hstep => ?_) h
  split at hstep
  · rename_i hlt
    have hsteps : m - 1 - e.1 = m - n + (n - 1 - e.1) := by omega
    have hlater : n - 1 - e.1 < n := by omega
    rw [if_pos (Nat.lt_of_lt_of_le hlt hle), hsteps]
    exact mergeOwn?_imp (fun p _ => hfg _ hlater p.2) (fun s _ => hfg _ hlater s) hstep
  · cases hstep

/-- A shape that is found is found with more steps, too. -/
theorem Schema.shape?_mono (h : s.shape? table n = some shape) (hle : n ≤ m) :
    s.shape? table m = some shape := by
  induction n using Nat.strongRecOn generalizing m s shape with
  | _ n ih =>
    obtain _ | n := n
    · cases h
    · obtain ⟨m, rfl⟩ : ∃ m', m = m' + 1 := ⟨m - 1, by omega⟩
      have hle : n ≤ m := by omega
      cases s with
      | ref path => exact h
      | inline b =>
        rcases Schema.shape?_inline table b with ⟨look, hlook, he⟩ | ⟨s, -, he⟩ | ⟨-, he⟩
        · rw [he] at h ⊢
          exact hlook.imp (fun s _ x hs => ih n (Nat.lt_succ_self n) hs hle) h
        · rw [he] at h ⊢
          exact ih n (Nat.lt_succ_self n) h hle
        · rw [he] at h ⊢
          obtain ⟨o, ho, rfl⟩ := Option.map_eq_some_iff.mp h
          have hmerge := SchemaBody.merge?_imp
            (fun k hk s x hs => ih k (Nat.lt_succ_of_lt hk) hs (by omega)) hle ho
          rw [hmerge]
          rfl

theorem Schema.shape?_unique {other : Shape} (h : s.shape? table n = some shape)
    (hother : s.shape? table m = some other) : shape = other := by
  have hn := shape?_mono h (Nat.le_max_left n m)
  have hm := shape?_mono hother (Nat.le_max_right n m)
  exact Option.some.inj (hn.symm.trans hm)

/-! ### What a merge needs -/

def Schema.isFound (table : SchemaTable) (n : Nat) (s : Schema) : Bool := (s.shape? table n).isSome

theorem Schema.isFound_mono (h : s.isFound table n) (hle : n ≤ m) : s.isFound table m := by
  obtain ⟨shape, hs⟩ := Option.isSome_iff_exists.mp h
  exact Option.isSome_iff_exists.mpr ⟨shape, shape?_mono hs hle⟩

/-- The first declaration of additional properties, with its distance. -/
def firstDeclared (es : List (Nat × SchemaBody)) : Option (Nat × Option Schema) :=
  es.findSome? fun e => e.2.declared?.map (e.1, ·)

theorem firstDeclared_cons {e : Nat × SchemaBody} {es : List (Nat × SchemaBody)} :
    firstDeclared (e :: es) = (e.2.declared?.map (e.1, ·)).or (firstDeclared es) := by
  rw [firstDeclared, List.findSome?_cons]
  cases e.2.declared? <;> rfl

/-- What is needed of the bodies at their distances, to merge them with `n` steps into what has additional
properties already or has not. -/
structure Readable (table : SchemaTable) (n : Nat) (undeclared : Prop) (es : List (Nat × SchemaBody)) :
    Prop where
  near : ∀ e ∈ es, e.1 < n
  properties : ∀ e ∈ es, ∀ p ∈ e.2.properties, p.2.isFound table (n - 1 - e.1)
  additional : undeclared → ∀ k s, firstDeclared es = some (k, some s) → s.isFound table (n - 1 - k)

theorem readable_cons_iff {undeclared : Prop} {e : Nat × SchemaBody} {es : List (Nat × SchemaBody)} :
    Readable table n undeclared (e :: es) ↔ e.1 < n ∧
      ((∀ p ∈ e.2.properties, p.2.isFound table (n - 1 - e.1)) ∧
        (undeclared → ∀ s, e.2.declared? = some (some s) → s.isFound table (n - 1 - e.1))) ∧
      Readable table n (undeclared ∧ e.2.declared? = none) es := by
  constructor
  · rintro ⟨hnear, hp, ha⟩
    obtain ⟨hnear, nearRest⟩ := List.forall_mem_cons.mp hnear
    obtain ⟨hp, propertiesRest⟩ := List.forall_mem_cons.mp hp
    refine ⟨hnear, ⟨hp, fun hu s hs => ha hu e.1 s ?_⟩, nearRest, propertiesRest,
      fun hu k s hfirst => ha hu.1 k s ?_⟩
    · rw [firstDeclared_cons, hs]
      rfl
    · rw [firstDeclared_cons, hu.2]
      exact hfirst
  · rintro ⟨hnear, ⟨hp, ha⟩, rest⟩
    refine ⟨List.forall_mem_cons.mpr ⟨hnear, rest.near⟩, List.forall_mem_cons.mpr ⟨hp, rest.properties⟩,
      fun hu k s hfirst => ?_⟩
    rw [firstDeclared_cons] at hfirst
    cases hd : e.2.declared? with
    | none =>
      rw [hd] at hfirst
      exact rest.additional ⟨hu, hd⟩ k s hfirst
    | some extra =>
      rw [hd] at hfirst
      cases hfirst
      exact ha hu s hd

theorem isSome_foldlM_iff {es : List (Nat × SchemaBody)} : (es.foldlM
    (fun o e => if e.1 < n then e.2.mergeOwn? (Schema.shape? table (n - 1 - e.1)) o else none) o).isSome ↔
      Readable table n (o.additional = none) es := by
  induction es generalizing o with
  | nil => exact iff_of_true rfl ⟨nofun, nofun, fun _ _ _ h => nomatch h⟩
  | cons e es ih =>
    rw [List.foldlM_cons, Option.bind_eq_bind, readable_cons_iff]
    by_cases hnear : e.1 < n
    · have readable :=
        SchemaBody.isSome_mergeOwn? (b := e.2) (f := Schema.shape? table (n - 1 - e.1)) (o := o)
      rw [if_pos hnear]
      cases hmerged : e.2.mergeOwn? (Schema.shape? table (n - 1 - e.1)) o with
      | none =>
        rw [hmerged] at readable
        exact iff_of_false nofun fun h => nomatch readable.mpr h.2.1
      | some merged =>
        rw [hmerged] at readable
        rw [← SchemaBody.additional_mergeOwn? hmerged, Option.bind_some, ih]
        exact ⟨fun rest => ⟨hnear, readable.mp rfl, rest⟩, fun h => h.2.2⟩
    · rw [if_neg hnear]
      exact iff_of_false nofun fun h => hnear h.1

theorem SchemaBody.isSome_merge?_iff : (merge? table n path b o).isSome ↔
    Readable table n (o.additional = none) (table.spread path b) := by
  rw [merge?_eq_foldlM, isSome_foldlM_iff]

end ClientGen
