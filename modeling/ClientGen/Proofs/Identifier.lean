import Mathlib.Data.List.Nodup
import Mathlib.Data.List.Perm.Subperm
import ClientGen.Text.Identifier

/-! The search for an unused identifier. It never runs out of candidates. -/
namespace ClientGen.Identifier
variable {used : List String} {base : String}

theorem numbered_injective (base : String) {m n : Nat}
    (h : base ++ toString m = base ++ toString n) : m = n := by
  have hd := congrArg String.toList ((String.append_right_inj base).mp h)
  simp only [Nat.toString_eq_repr, Nat.toList_repr] at hd
  simpa using congrArg (fun digits => Nat.ofDigitChars 10 digits 0) hd

/-- The search stops at the first candidate that is not used, unless it has no room left. -/
theorem freshFrom_spec (used : List String) (base : String) (room n : Nat) :
    ∃ m, freshFrom used base room n = base ++ toString m ∧ n ≤ m ∧ m ≤ n + room ∧
      (∀ i, n ≤ i → i < m → base ++ toString i ∈ used) ∧
      (m < n + room → base ++ toString m ∉ used) := by
  induction room generalizing n with
  | zero => exact ⟨n, rfl, Nat.le_refl n, Nat.le_refl n, by omega, by omega⟩
  | succ room ih =>
    by_cases h : base ++ toString n ∈ used
    · obtain ⟨m, he, hn, hm, hall, hnot⟩ := ih (n + 1)
      refine ⟨m, by rw [freshFrom, if_pos h, he], by omega, by omega, ?_, fun hlt => hnot (by omega)⟩
      intro i hi him
      rcases Nat.eq_or_lt_of_le hi with rfl | hi
      · exact h
      · exact hall i hi him
    · exact ⟨n, by rw [freshFrom, if_neg h], Nat.le_refl n, by omega, by omega, fun _ => h⟩

/-- Distinct candidates that are all used are no more than there are used names. -/
theorem le_length_of_numbered (base : String) (n : Nat) {k : Nat}
    (h : ∀ i, n ≤ i → i < n + k → base ++ toString i ∈ used) : k ≤ used.length := by
  have hd : ((List.range k).map fun i => base ++ toString (n + i)).Nodup := by
    refine List.Nodup.map_on (fun i _ j _ he => ?_) List.nodup_range
    have := numbered_injective base he
    omega
  have hs : ((List.range k).map fun i => base ++ toString (n + i)) ⊆ used := by
    intro x hx
    obtain ⟨i, hi, rfl⟩ := List.mem_map.mp hx
    have := List.mem_range.mp hi
    exact h _ (by omega) (by omega)
  simpa using (hd.subperm hs).length_le

theorem freshFrom_not_mem (used : List String) (base : String) :
    freshFrom used base used.length 2 ∉ used := by
  obtain ⟨m, he, _, hm, hall, hnot⟩ := freshFrom_spec used base used.length 2
  rw [he]
  by_cases hlt : m < 2 + used.length
  · exact hnot hlt
  · intro hu
    have hle : used.length + 1 ≤ used.length := by
      refine le_length_of_numbered base 2 fun i hi hik => ?_
      rcases Nat.lt_or_ge i m with him | him
      · exact hall i hi him
      · rwa [show i = m by omega]
    omega

theorem fresh_not_mem (used : List String) (base : String) : fresh used base ∉ used := by
  by_cases hb : base ∈ used
  · rw [fresh, if_pos hb]
    exact freshFrom_not_mem used base
  · rwa [fresh, if_neg hb]

theorem numbered_ne (base : String) (n : Nat) : base ++ toString n ≠ base :=
  mt String.append_eq_left_iff.mp Nat.repr_ne_empty

/-- What the search for an unused identifier finds: `base` itself, or else the first of `base2`, `base3`, …
that is not used. It is found among as many candidates as there are used names, so the search ends. -/
def IsFresh (used : List String) (base id : String) : Prop :=
  if base ∈ used then
    ∃ n, 2 ≤ n ∧ n ≤ used.length + 1 ∧ id = base ++ toString n ∧ id ∉ used ∧
      ∀ m, 2 ≤ m → m < n → base ++ toString m ∈ used
  else id = base

theorem isFresh_fresh (used : List String) (base : String) : IsFresh used base (fresh used base) := by
  rw [IsFresh]
  split
  · rename_i hb
    obtain ⟨n, he, hn, -, hall, -⟩ := freshFrom_spec used base used.length 2
    have hfound : fresh used base = base ++ toString n := by rw [fresh, if_pos hb, he]
    -- `base` is used as well, and is none of the numbered candidates
    have hothers : n - 2 ≤ (used.erase base).length := by
      refine le_length_of_numbered base 2 fun i hi hin => ?_
      exact (List.mem_erase_of_ne (numbered_ne base i)).mpr (hall i hi (by omega))
    rw [List.length_erase_of_mem hb] at hothers
    have hpos := List.length_pos_of_mem hb
    exact ⟨n, hn, by omega, hfound, fresh_not_mem used base, hall⟩
  · rename_i hb
    rw [fresh, if_neg hb]

/-- Identifiers that are distinct, and none of them used before. -/
def Apart (used ids : List String) : Prop := ids.Nodup ∧ ∀ id ∈ ids, id ∉ used

theorem apart_nil (used : List String) : Apart used [] := ⟨List.nodup_nil, fun _ h => nomatch h⟩

theorem Apart.cons_of_not_mem {used' ids : List String} {id : String} (h : Apart used' ids) (hid : id ∉ used)
    (hused : ∀ a, a ∈ used' ↔ a ∈ used ∨ a = id) : Apart used (id :: ids) := by
  obtain ⟨hnodup, hnew⟩ := h
  refine ⟨List.nodup_cons.mpr ⟨fun hmem => hnew _ hmem ((hused _).mpr (.inr rfl)), hnodup⟩, ?_⟩
  intro a ha
  rcases List.mem_cons.mp ha with rfl | ha
  · exact hid
  · exact fun hmem => hnew a ha ((hused a).mpr (.inl hmem))

/-- A search that goes on with the identifier that it found counted as used keeps all apart. -/
theorem Apart.cons {used' ids : List String} (h : Apart used' ids)
    (hused : ∀ id, id ∈ used' ↔ id ∈ used ∨ id = fresh used base) :
    Apart used (fresh used base :: ids) :=
  h.cons_of_not_mem (fresh_not_mem used base) hused

end ClientGen.Identifier
