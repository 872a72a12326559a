import Mathlib.Data.List.Induction
import Mathlib.Data.List.Nodup
import ClientGen.Entries

/-! Look-up in ordered maps, after an entry is put and after keys are renamed. -/
namespace ClientGen.Entries
variable {κ α : Type} [DecidableEq κ] {es : Entries κ α} {k k' : κ} {v w : α}

/-- An entry that is put is found under its key, and all others as before. -/
theorem get?_put : get? (put es k v) k' = if k = k' then some v else get? es k' := by
  induction es with
  | nil => rfl
  | cons e es ih =>
    obtain ⟨k₀, v₀⟩ := e
    by_cases h : k₀ = k
    · subst h
      by_cases h' : k₀ = k' <;> simp [put, get?, h']
    · by_cases h' : k₀ = k'
      · subst h'
        simp [put, get?, h, Ne.symm h]
      · simp [put, get?, h, h', ih]

theorem get?_append_singleton :
    get? (es ++ [(k, v)]) k' = (get? es k').or (if k = k' then some v else none) := by
  induction es with
  | nil => rfl
  | cons e es ih =>
    obtain ⟨k₀, v₀⟩ := e
    by_cases h : k₀ = k' <;> simp [get?, h, ih]

theorem mem_of_get? (h : get? es k = some v) : (k, v) ∈ es := by
  induction es with
  | nil => simp [get?] at h
  | cons e es ih =>
    obtain ⟨k₀, v₀⟩ := e
    by_cases hk : k₀ = k
    · subst hk
      simp_all [get?]
    · exact List.mem_cons_of_mem _ (ih (by simpa [get?, hk] using h))

omit [DecidableEq κ] in
theorem mem_keys_of_mem (h : (k, v) ∈ es) : k ∈ keys es := List.mem_map.mpr ⟨_, h, rfl⟩

/-- Where every key is listed once, whatever is listed is found. -/
theorem get?_eq_some_iff_mem (hd : (keys es).Nodup) : get? es k = some v ↔ (k, v) ∈ es := by
  refine ⟨mem_of_get?, fun h => ?_⟩
  induction es with
  | nil => cases h
  | cons e es ih =>
    obtain ⟨k₀, v₀⟩ := e
    obtain ⟨hnew, hd⟩ := List.nodup_cons.mp hd
    rcases List.mem_cons.mp h with he | h
    · cases he
      rw [get?, if_pos rfl]
    · have hne : k₀ ≠ k := fun he => hnew (he ▸ mem_keys_of_mem h)
      rw [get?, if_neg hne]
      exact ih hd h

theorem has_eq_true_iff : has es k = true ↔ k ∈ keys es := by
  induction es with
  | nil => simp [has, get?, keys]
  | cons e es ih =>
    obtain ⟨k₀, v₀⟩ := e
    by_cases hk : k₀ = k
    · simp [has, get?, keys, hk]
    · simpa [has, get?, keys, hk, Ne.symm hk] using ih

theorem exists_get?_iff : (∃ v, get? es k = some v) ↔ k ∈ keys es := by
  rw [← has_eq_true_iff, has, Option.isSome_iff_exists]

theorem get?_eq_none_iff : get? es k = none ↔ k ∉ keys es := by
  rw [← exists_get?_iff, ← Option.isSome_iff_exists, Bool.not_eq_true, Option.isSome_eq_false_iff,
    Option.isNone_iff_eq_none]

theorem mem_keys_put : k' ∈ keys (put es k v) ↔ k' = k ∨ k' ∈ keys es := by
  rw [← exists_get?_iff, ← exists_get?_iff, get?_put]
  by_cases h : k = k'
  · simp [h]
  · simp [h, Ne.symm h]

theorem mem_put {e : κ × α} (h : e ∈ put es k v) : e = (k, v) ∨ e ∈ es := by
  induction es with
  | nil => exact .inl (List.mem_singleton.mp h)
  | cons e₀ es ih =>
    obtain ⟨k₀, v₀⟩ := e₀
    by_cases hk : k₀ = k
    · simp only [put, hk, if_true, List.mem_cons] at h
      exact h.imp_right (List.mem_cons_of_mem _)
    · simp only [put, hk, if_false, List.mem_cons] at h
      rcases h with rfl | h
      · exact .inr List.mem_cons_self
      · exact (ih h).imp_right (List.mem_cons_of_mem _)

/-- A new key goes to the end. -/
theorem put_of_not_mem (h : k ∉ keys es) : put es k v = es ++ [(k, v)] := by
  induction es with
  | nil => rfl
  | cons e es ih =>
    obtain ⟨k₀, v₀⟩ := e
    simp only [keys, List.map_cons, List.mem_cons, not_or] at h
    simpa [put, keys, Ne.symm h.1] using ih h.2

theorem keys_put_of_not_mem (h : k ∉ keys es) : keys (put es k v) = keys es ++ [k] := by
  rw [put_of_not_mem h, keys, List.map_append]
  rfl

/-- A key that is there keeps its place. -/
theorem keys_put_of_mem (h : k ∈ keys es) : keys (put es k v) = keys es := by
  induction es with
  | nil => simp [keys] at h
  | cons e es ih =>
    obtain ⟨k₀, v₀⟩ := e
    by_cases hk : k₀ = k
    · simp [put, keys, hk]
    · have h' : k ∈ keys es := by simpa [keys, Ne.symm hk] using h
      simpa [put, keys, hk] using ih h'

theorem nodup_keys_put (h : (keys es).Nodup) : (keys (put es k v)).Nodup := by
  by_cases hk : k ∈ keys es
  · rwa [keys_put_of_mem hk]
  · rw [keys_put_of_not_mem hk, ← List.concat_eq_append]
    exact h.concat hk

/-- What is put takes the place of what had its key. -/
theorem mem_put_of_nodup {e : κ × α} (hd : (keys es).Nodup) (h : e ∈ put es k v) :
    e = (k, v) ∨ e ∈ es ∧ e.1 ≠ k := by
  by_cases hk : e.1 = k
  · have hput : (k, v) ∈ put es k v := mem_of_get? (by rw [get?_put, if_pos rfl])
    exact .inl (List.inj_on_of_nodup_map (nodup_keys_put hd) h hput hk)
  · exact .inr ⟨(mem_put h).resolve_left fun he => hk (he ▸ rfl), hk⟩

/-- What is read off the entries alike does not show which of them was put. -/
theorem filterMap_put {β : Type} {f : κ × α → Option β} (hk : get? es k = some w)
    (hf : f (k, v) = f (k, w)) : (put es k v).filterMap f = es.filterMap f := by
  induction es with
  | nil => cases hk
  | cons e es ih =>
    obtain ⟨k₀, v₀⟩ := e
    by_cases h : k₀ = k
    · subst h
      obtain rfl : v₀ = w := by simpa [get?] using hk
      simp [put, List.filterMap_cons, hf]
    · simp only [get?, h, if_false] at hk
      simp [put, h, List.filterMap_cons, ih hk]

/-- Entries put one after the other. -/
def putAll (es new : Entries κ α) : Entries κ α := new.foldl (fun es e => put es e.1 e.2) es

theorem putAll_append (es new more : Entries κ α) :
    putAll es (new ++ more) = putAll (putAll es new) more :=
  List.foldl_append

/-- What is put does not depend on what stands under other keys. -/
theorem get?_putAll_congr {es' : Entries κ α} (h : get? es k = get? es' k) (new : Entries κ α) :
    get? (putAll es new) k = get? (putAll es' new) k := by
  induction new generalizing es es' with
  | nil => exact h
  | cons e new ih =>
    refine ih ?_
    rw [get?_put, get?_put, h]

theorem get?_putAll_of_not_mem {new : Entries κ α} (h : k ∉ keys new) :
    get? (putAll es new) k = get? es k := by
  induction new generalizing es with
  | nil => rfl
  | cons e new ih =>
    simp only [keys, List.map_cons, List.mem_cons, not_or] at h
    rw [putAll, List.foldl_cons]
    exact (ih h.2).trans (by rw [get?_put, if_neg (Ne.symm h.1)])

/-- Of several entries with one key the last counts, unless they are all the same. -/
theorem get?_putAll_of_mem {new : Entries κ α} (hv : ∀ e ∈ new, e.1 = k → e.2 = v) (h : k ∈ keys new) :
    get? (putAll es new) k = some v := by
  induction new generalizing es with
  | nil => cases h
  | cons e new ih =>
    obtain ⟨he, hnew⟩ := List.forall_mem_cons.mp hv
    rw [putAll, List.foldl_cons]
    by_cases hk : k ∈ keys new
    · exact ih hnew hk
    · have hek : e.1 = k := ((List.mem_cons.mp h).resolve_right hk).symm
      exact (get?_putAll_of_not_mem hk).trans (by rw [get?_put, if_pos hek, he hek])

/-- What is listed under keys that are all different is found under its key. -/
theorem get?_ofList_map {β : Type} (f : β → κ) (g : β → α) {xs : List β} {x : β}
    (hf : ∀ y ∈ xs, f y = f x → y = x) (hx : x ∈ xs) :
    get? (ofList (xs.map fun y => (f y, g y))) (f x) = some (g x) := by
  refine get?_putAll_of_mem (fun e he hkey => ?_) (mem_keys_of_mem (List.mem_map.mpr ⟨x, hx, rfl⟩))
  obtain ⟨y, hy, rfl⟩ := List.mem_map.mp he
  rw [hf y hy hkey]

theorem get?_mapValues (f : κ → α → α) : get? (es.map fun e => (e.1, f e.1 e.2)) k = (get? es k).map (f k) := by
  induction es with
  | nil => rfl
  | cons e es ih =>
    obtain ⟨k', v⟩ := e
    by_cases hk : k' = k
    · simp [get?, hk]
    · simpa [get?, hk] using ih

/-- The same entries under renamed keys. -/
def mapKeys (f : κ → κ) (es : Entries κ α) : Entries κ α := es.map fun e => (f e.1, e.2)

/-- A key that stays apart from the others is found under its new name. -/
theorem get?_mapKeys {f : κ → κ} (hf : ∀ a ∈ keys es, f a = f k → a = k) :
    get? (mapKeys f es) (f k) = get? es k := by
  induction es with
  | nil => rfl
  | cons e es ih =>
    obtain ⟨k₀, v₀⟩ := e
    obtain ⟨h₀, hf⟩ := List.forall_mem_cons.mp hf
    by_cases hk : k₀ = k
    · simp [mapKeys, get?, hk]
    · have hne : f k₀ ≠ f k := fun he => hk (h₀ he)
      simpa [mapKeys, get?, hk, hne] using ih hf

theorem has_mapKeys {f : κ → κ} (hf : ∀ a ∈ keys es, f a = f k → a = k) :
    has (mapKeys f es) (f k) = has es k := by rw [has, get?_mapKeys hf, has]

theorem put_mapKeys {f : κ → κ} (hf : ∀ a ∈ keys es, f a = f k → a = k) :
    put (mapKeys f es) (f k) v = mapKeys f (put es k v) := by
  induction es with
  | nil => rfl
  | cons e es ih =>
    obtain ⟨k₀, v₀⟩ := e
    obtain ⟨h₀, hf⟩ := List.forall_mem_cons.mp hf
    by_cases hk : k₀ = k
    · simp [mapKeys, put, hk]
    · have hne : f k₀ ≠ f k := fun he => hk (h₀ he)
      simpa [mapKeys, put, hk, hne] using ih hf

theorem putAll_of_nodup {new : Entries κ α} (h : (keys (es ++ new)).Nodup) :
    putAll es new = es ++ new := by
  induction new generalizing es with
  | nil => rw [List.append_nil]; rfl
  | cons e new ih =>
    have hnew : e.1 ∉ keys es := by
      rw [keys, List.map_append, List.map_cons, List.nodup_middle, List.nodup_cons] at h
      exact fun hmem => h.1 (List.mem_append_left _ hmem)
    rw [← List.singleton_append, ← List.append_assoc] at h
    rw [putAll, List.foldl_cons, put_of_not_mem hnew]
    exact (ih h).trans (List.append_assoc ..)

/-- Entries whose keys are distinct are listed as they are. -/
theorem ofList_of_nodup {pairs : List (κ × α)} (h : (keys pairs).Nodup) : ofList pairs = pairs := by
  have hall : (keys ([] ++ pairs)).Nodup := h
  exact putAll_of_nodup hall

theorem mem_ofList {pairs : List (κ × α)} : ∀ e ∈ ofList pairs, e ∈ pairs :=
  pairs.foldlRecOn (motive := fun es => ∀ e ∈ es, e ∈ pairs) _ (fun _ h => nomatch h)
    fun _ h _ hp _ he => (mem_put he).elim (fun he => he ▸ hp) (h _)

/-- However often a key is repeated, it is listed once. -/
theorem nodup_keys_ofList (pairs : List (κ × α)) : (keys (ofList pairs)).Nodup :=
  pairs.foldlRecOn (motive := fun es => (keys es).Nodup) _ List.nodup_nil
    fun _ h _ _ => nodup_keys_put h

/-! ### First and last occurrences -/

/-- What is appended to a list is new to it, each element once. -/
theorem foldl_addNew (xs ys : List κ) : ys.foldl addNew xs = xs ++ (ys.filter (· ∉ xs)).eraseDups := by
  induction ys generalizing xs with
  | nil => simp
  | cons y ys ih =>
    rw [List.foldl_cons, ih, addNew]
    by_cases hy : y ∈ xs
    · simp [hy]
    · have hfilter : ys.filter (· ∉ xs ++ [y]) = (ys.filter (· ∉ xs)).filter (fun z => !z == y) := by
        rw [List.filter_filter]
        exact List.filter_congr fun z _ => by by_cases hz : z = y <;> simp [hz]
      rw [if_neg hy, hfilter, List.filter_cons_of_pos (by simpa using hy), List.eraseDups_cons,
        List.append_assoc]
      rfl

theorem foldl_addNew_nil (ys : List κ) : ys.foldl addNew [] = ys.eraseDups := by
  simp [foldl_addNew]

theorem nodup_addNew {xs : List κ} (h : xs.Nodup) (x : κ) : (addNew xs x).Nodup := by
  rw [addNew]
  split
  · exact h
  · rename_i hx
    rw [← List.concat_eq_append]
    exact h.concat hx

theorem nodup_foldl_addNew (xs : List κ) : (xs.foldl addNew []).Nodup :=
  xs.foldlRecOn (motive := List.Nodup) addNew List.nodup_nil fun _ h x _ => nodup_addNew h x

theorem nodup_eraseDups (xs : List κ) : xs.eraseDups.Nodup := foldl_addNew_nil xs ▸ nodup_foldl_addNew xs

theorem keys_put (es : Entries κ α) (k : κ) (v : α) : keys (put es k v) = addNew (keys es) k := by
  rw [addNew]
  split
  · rename_i hk
    exact keys_put_of_mem hk
  · rename_i hk
    exact keys_put_of_not_mem hk

theorem keys_putAll (es new : Entries κ α) :
    keys (putAll es new) = (keys new).foldl addNew (keys es) := by
  induction new generalizing es with
  | nil => rfl
  | cons e new ih =>
    have hrest := ih (put es e.1 e.2)
    rw [keys_put] at hrest
    exact hrest

/-- The last entry of a key counts. -/
theorem get?_putAll_last {before after : Entries κ α} (h : k ∉ keys after) :
    get? (putAll es (before ++ (k, v) :: after)) k = some v := by
  rw [putAll_append]
  refine (get?_putAll_of_not_mem h).trans ?_
  rw [get?_put, if_pos rfl]

theorem keys_ofList (pairs : List (κ × α)) : keys (ofList pairs) = (keys pairs).eraseDups :=
  (keys_putAll [] pairs).trans (foldl_addNew_nil _)

theorem get?_ofList_eq_none_iff {pairs : List (κ × α)} : get? (ofList pairs) k = none ↔ k ∉ keys pairs := by
  rw [get?_eq_none_iff, keys_ofList, List.mem_eraseDups]

omit [DecidableEq κ] in
/-- A key that is listed is listed a last time. -/
theorem exists_last {pairs : List (κ × α)} (h : k ∈ keys pairs) :
    ∃ before v after, pairs = before ++ (k, v) :: after ∧ k ∉ keys after := by
  induction pairs with
  | nil => cases h
  | cons e pairs ih =>
    by_cases hk : k ∈ keys pairs
    · obtain ⟨before, v, after, rfl, hafter⟩ := ih hk
      exact ⟨e :: before, v, after, rfl, hafter⟩
    · have he : k = e.1 := (List.mem_cons.mp h).resolve_right hk
      exact ⟨[], e.2, pairs, by rw [he]; rfl, hk⟩

theorem get?_ofList_eq_some_iff {pairs : List (κ × α)} : get? (ofList pairs) k = some v ↔
    ∃ before after, pairs = before ++ (k, v) :: after ∧ k ∉ keys after := by
  constructor
  · intro h
    have hk : k ∈ keys pairs := by
      by_contra hk
      rw [get?_ofList_eq_none_iff.mpr hk] at h
      cases h
    obtain ⟨before, w, after, rfl, hafter⟩ := exists_last hk
    obtain rfl : w = v := Option.some.inj ((get?_putAll_last hafter).symm.trans h)
    exact ⟨before, after, rfl, hafter⟩
  · rintro ⟨before, after, rfl, hafter⟩
    exact get?_putAll_last hafter

theorem eraseDups_concat (xs : List κ) (x : κ) : (xs ++ [x]).eraseDups = addNew xs.eraseDups x := by
  rw [← foldl_addNew_nil, ← foldl_addNew_nil, List.foldl_append]
  rfl

/-- What is read off a list keeps its order of first occurrence, where it is read off one element only. -/
theorem eraseDups_filterMap {β : Type} [DecidableEq β] {f : κ → Option β} {xs : List κ}
    (hf : ∀ x y b, f x = some b → f y = some b → x = y) :
    (xs.filterMap f).eraseDups = xs.eraseDups.filterMap f := by
  induction xs using List.reverseRecOn with
  | nil => rfl
  | append_singleton xs x ih =>
    rw [List.filterMap_append, eraseDups_concat, addNew]
    cases hx : f x with
    | none =>
      have hskip : [x].filterMap f = [] := by simp [hx]
      rw [hskip, List.append_nil, ih]
      split
      · rfl
      · rw [List.filterMap_append, hskip, List.append_nil]
    | some b =>
      have htake : [x].filterMap f = [b] := by simp [hx]
      have hmem : b ∈ xs.eraseDups.filterMap f ↔ x ∈ xs.eraseDups := by
        rw [List.mem_filterMap]
        constructor
        · rintro ⟨y, hy, hb⟩
          exact hf y x b hb hx ▸ hy
        · exact fun h => ⟨x, h, hx⟩
      rw [htake, eraseDups_concat, ih, addNew]
      by_cases hin : x ∈ xs.eraseDups
      · rw [if_pos hin, if_pos (hmem.mpr hin)]
      · rw [if_neg hin, if_neg (mt hmem.mp hin), List.filterMap_append, htake]

/-! ### Some of the keys -/

theorem filter_put (p : κ → Bool) : (put es k v).filter (fun e => p e.1) =
    if p k then put (es.filter fun e => p e.1) k v else es.filter fun e => p e.1 := by
  induction es with
  | nil => cases hp : p k <;> simp [put, hp]
  | cons e es ih =>
    obtain ⟨k₀, v₀⟩ := e
    by_cases hk : k₀ = k
    · subst hk
      cases hp : p k₀ <;> simp [put, hp]
    · cases hp : p k₀ <;> simp only [put, hk, if_false, List.filter_cons, hp, ih, Bool.false_eq_true, if_true]
      split <;> rfl

theorem filter_putAll (p : κ → Bool) (es new : Entries κ α) :
    (putAll es new).filter (fun e => p e.1) =
      putAll (es.filter fun e => p e.1) (new.filter fun e => p e.1) := by
  induction new generalizing es with
  | nil => rfl
  | cons e new ih =>
    have hrest := ih (put es e.1 e.2)
    rw [filter_put] at hrest
    rw [List.filter_cons]
    split
    · rename_i hp
      rw [if_pos hp] at hrest
      exact hrest
    · rename_i hp
      rw [if_neg hp] at hrest
      exact hrest

theorem get?_filter {p : κ → Bool} (hk : p k) : get? (es.filter fun e => p e.1) k = get? es k := by
  induction es with
  | nil => rfl
  | cons e es ih =>
    obtain ⟨k₀, v₀⟩ := e
    by_cases h : k₀ = k
    · subst h
      simp [get?, hk]
    · cases hp : p k₀ <;> simp [get?, hp, h, ih]

end ClientGen.Entries
