import Mathlib.Data.List.Forall2

/-! When the steps of a computation that can fail succeed together. -/
namespace ClientGen
variable {ε α β : Type}

@[simp] theorem ok_bind (a : α) (f : α → Except ε β) : (.ok a >>= f) = f a := rfl

@[simp] theorem error_bind (e : ε) (f : α → Except ε β) : (.error e >>= f) = .error e := rfl

@[simp] theorem bind_eq_ok {x : Except ε α} {f : α → Except ε β} {b : β} :
    (x >>= f) = .ok b ↔ ∃ a, x = .ok a ∧ f a = .ok b := by
  cases x <;> simp [bind, Except.bind]

theorem bind_eq_error {x : Except ε α} {f : α → Except ε β} {e : ε} :
    (x >>= f) = .error e ↔ x = .error e ∨ ∃ a, x = .ok a ∧ f a = .error e := by
  cases x <;> simp [bind, Except.bind]

/-- Checks return nothing, so one after another succeeds when both do. -/
theorem andThen_eq_ok {x y : Except ε Unit} : (x >>= fun _ => y) = .ok () ↔ x = .ok () ∧ y = .ok () := by
  rw [bind_eq_ok]
  exact ⟨fun ⟨_, hx, hy⟩ => ⟨hx, hy⟩, fun ⟨hx, hy⟩ => ⟨(), hx, hy⟩⟩

@[simp] theorem map_eq_ok {x : Except ε α} {f : α → β} {b : β} :
    f <$> x = .ok b ↔ ∃ a, x = .ok a ∧ f a = b := by
  cases x <;> simp [Functor.map, Except.map]

theorem exceptMap_eq_ok {x : Except ε α} {f : α → β} {b : β} :
    x.map f = .ok b ↔ ∃ a, x = .ok a ∧ f a = b := map_eq_ok

theorem mapError_eq_ok {ε' : Type} {x : Except ε α} {f : ε → ε'} {a : α} :
    x.mapError f = .ok a ↔ x = .ok a := by
  cases x <;> simp [Except.mapError]

theorem mapError_eq_error {ε' : Type} {x : Except ε α} {f : ε → ε'} {e : ε'} :
    x.mapError f = .error e ↔ ∃ e', x = .error e' ∧ f e' = e := by
  cases x <;> simp [Except.mapError]

@[simp] theorem pure_eq_ok {a b : α} : (pure a : Except ε α) = .ok b ↔ a = b := by
  simp [pure, Except.pure]

@[simp] theorem throw_eq_error (e : ε) : (throw e : Except ε α) = .error e := rfl

/-- A list is worked through if each element is. -/
theorem mapM_eq_ok {f : α → Except ε β} {xs : List α} {ys : List β} :
    xs.mapM f = .ok ys ↔ List.Forall₂ (fun x y => f x = .ok y) xs ys := by
  induction xs generalizing ys with
  | nil => cases ys <;> simp
  | cons x xs ih =>
    rw [List.mapM_cons, List.forall₂_cons_left_iff]
    simp only [bind_eq_ok, pure_eq_ok, ih]
    constructor
    · rintro ⟨b, hb, bs, hbs, rfl⟩
      exact ⟨b, bs, hb, hbs, rfl⟩
    · rintro ⟨b, bs, hb, hbs, rfl⟩
      exact ⟨b, hb, bs, hbs, rfl⟩

/-- What a list is worked through with is met at one of its elements. -/
theorem exists_of_mapM_eq_error {f : α → Except ε β} {xs : List α} {e : ε} (h : xs.mapM f = .error e) :
    ∃ x ∈ xs, f x = .error e := by
  induction xs with
  | nil => cases h
  | cons x xs ih =>
    rw [List.mapM_cons] at h
    rcases bind_eq_error.mp h with h | ⟨y, -, h⟩
    · exact ⟨x, List.mem_cons_self, h⟩
    · rcases bind_eq_error.mp h with h | ⟨ys, -, h⟩
      · obtain ⟨x', hx', he⟩ := ih h
        exact ⟨x', List.mem_cons_of_mem _ hx', he⟩
      · cases h

theorem exists_of_forall₂ {R : α → β → Prop} {xs : List α} {ys : List β} {y : β}
    (h : List.Forall₂ R xs ys) (hy : y ∈ ys) : ∃ x ∈ xs, R x y := by
  induction h with
  | nil => cases hy
  | cons hxy _ ih =>
    rcases List.mem_cons.mp hy with rfl | hy
    · exact ⟨_, List.mem_cons_self, hxy⟩
    · obtain ⟨x, hx, hxy⟩ := ih hy
      exact ⟨x, List.mem_cons_of_mem _ hx, hxy⟩

theorem mem_iff_of_mapM_eq_ok {f : α → Except ε β} {xs : List α} {ys : List β} {y : β}
    (h : xs.mapM f = .ok ys) : y ∈ ys ↔ ∃ x ∈ xs, f x = .ok y := by
  have hxs := mapM_eq_ok.mp h
  constructor
  · exact exists_of_forall₂ hxs
  · rintro ⟨x, hx, hy⟩
    obtain ⟨y', hy', hxy⟩ := exists_of_forall₂ hxs.flip hx
    obtain rfl : y = y' := Except.ok.inj (hy.symm.trans hxy)
    exact hy'

theorem exists_of_optionRel {R : α → β → Prop} {x : Option α} {y : Option β} {b : β}
    (h : Option.Rel R x y) (hb : b ∈ y) : ∃ a ∈ x, R a b := by
  cases h with
  | none => cases hb
  | some hab =>
    cases hb
    exact ⟨_, rfl, hab⟩

theorem optionRel_imp {R S : α → β → Prop} {x : Option α} {y : Option β} (h : ∀ a b, R a b → S a b)
    (hx : Option.Rel R x y) : Option.Rel S x y := by
  cases hx with
  | none => exact .none
  | some hab => exact .some (h _ _ hab)

/-- A step that keeps the key of an entry. -/
theorem keyed_eq_ok {κ : Type} {f : α → Except ε β} {e : κ × α} {e' : κ × β} :
    (do return (e.1, ← f e.2) : Except ε (κ × β)) = .ok e' ↔ e'.1 = e.1 ∧ f e.2 = .ok e'.2 := by
  obtain ⟨k, b⟩ := e'
  simp only [bind_eq_ok, pure_eq_ok, Prod.mk.injEq]
  constructor
  · rintro ⟨b', hb, rfl, rfl⟩
    exact ⟨rfl, hb⟩
  · rintro ⟨rfl, hb⟩
    exact ⟨b, hb, rfl, rfl⟩

/-- No element depends on another. -/
theorem exists_mapM_eq_ok {f : α → Except ε β} {xs : List α} :
    (∃ ys, xs.mapM f = .ok ys) ↔ ∀ x ∈ xs, ∃ y, f x = .ok y := by
  induction xs with
  | nil => simp
  | cons x xs ih =>
    simp only [List.forall_mem_cons, ← ih, mapM_eq_ok, List.forall₂_cons_left_iff]
    constructor
    · rintro ⟨_, y, ys, hy, hys, rfl⟩
      exact ⟨⟨y, hy⟩, ys, hys⟩
    · rintro ⟨⟨y, hy⟩, ys, hys⟩
      exact ⟨_, y, ys, hy, hys, rfl⟩

/-- What need not be done again to one element need not be done again to any. -/
theorem mapM_again {f : α → Except ε α} {xs ys : List α} (hf : ∀ x y, f x = .ok y → f y = .ok y)
    (h : xs.mapM f = .ok ys) : ys.mapM f = .ok ys := by
  rw [mapM_eq_ok] at h ⊢
  induction h with
  | nil => exact .nil
  | cons hxy _ ih => exact .cons (hf _ _ hxy) ih

theorem optionMapM_eq_ok {f : α → Except ε β} {x : Option α} {y : Option β} :
    x.mapM f = .ok y ↔ Option.Rel (fun x y => f x = .ok y) x y := by
  cases x <;> cases y <;> simp

theorem exists_optionMapM_eq_ok {f : α → Except ε β} {x : Option α} :
    (∃ y, x.mapM f = .ok y) ↔ ∀ a ∈ x, ∃ b, f a = .ok b := by
  cases x with
  | none => simp
  | some a =>
    simp only [optionMapM_eq_ok, Option.mem_some_iff, forall_eq']
    constructor
    · rintro ⟨_, ⟨hb⟩⟩
      exact ⟨_, hb⟩
    · rintro ⟨b, hb⟩
      exact ⟨some b, .some hb⟩

theorem optionMapM_again {f : α → Except ε α} {x y : Option α} (hf : ∀ a b, f a = .ok b → f b = .ok b)
    (h : x.mapM f = .ok y) : y.mapM f = .ok y := by
  rw [optionMapM_eq_ok] at h ⊢
  cases h with
  | none => exact .none
  | some hab => exact .some (hf _ _ hab)

theorem forM_eq_ok {f : α → Except ε Unit} {xs : List α} {u : Unit} :
    xs.forM f = .ok u ↔ ∀ x ∈ xs, f x = .ok () := by
  induction xs with
  | nil => simp
  | cons x xs ih =>
    rw [List.forall_mem_cons, ← ih]
    exact andThen_eq_ok

theorem optionForM_eq_ok {f : α → Except ε Unit} {x : Option α} :
    x.forM f = .ok () ↔ ∀ a ∈ x, f a = .ok () := by
  cases x <;> simp

theorem map_zipWith_right {γ : Type} {f : α → β → γ} {g : γ → β} {xs : List α} {ys : List β}
    (hl : ys.length = xs.length) (h : ∀ x y, g (f x y) = y) : (xs.zipWith f ys).map g = ys := by
  simp only [List.map_zipWith, h]
  rw [← List.map_uncurry_zip_eq_zipWith]
  exact List.map_snd_zip (Nat.le_of_eq hl)

theorem map_zipWith_left {γ δ : Type} {f : α → β → γ} {g : γ → δ} {h : α → δ} {xs : List α}
    {ys : List β} (hl : xs.length = ys.length) (hg : ∀ x y, g (f x y) = h x) :
    (xs.zipWith f ys).map g = xs.map h := by
  simp only [List.map_zipWith, hg]
  rw [← List.map_uncurry_zip_eq_zipWith]
  exact (List.map_map ..).symm.trans (congrArg (List.map h) (List.map_fst_zip (Nat.le_of_eq hl)))

theorem exists_of_mem_zipWith {γ : Type} {f : α → β → γ} {xs : List α} {ys : List β} {c : γ}
    (h : c ∈ xs.zipWith f ys) : ∃ x ∈ xs, ∃ y, f x y = c := by
  rw [← List.map_uncurry_zip_eq_zipWith] at h
  obtain ⟨⟨x, y⟩, hxy, rfl⟩ := List.mem_map.mp h
  exact ⟨x, (List.of_mem_zip hxy).1, y, rfl⟩

/-- What every step keeps holds at the end. -/
theorem foldlM_eq_some {P : β → Prop} {f : β → α → Option β} {xs : List α} {b b' : β}
    (step : ∀ b x b', x ∈ xs → P b → f b x = some b' → P b') (hb : P b)
    (h : xs.foldlM f b = some b') : P b' := by
  induction xs generalizing b with
  | nil =>
    cases h
    exact hb
  | cons x xs ih =>
    rw [List.foldlM_cons, Option.bind_eq_bind, Option.bind_eq_some_iff] at h
    obtain ⟨c, hc, h⟩ := h
    exact ih (fun b y b' hy => step b y b' (List.mem_cons_of_mem _ hy))
      (step b x c List.mem_cons_self hb hc) h

/-- A run through lists is a run of runs. -/
theorem foldlM_flatMap {γ : Type} {f : β → γ → Option β} {g : α → List γ} {xs : List α} {b : β} :
    (xs.flatMap g).foldlM f b = xs.foldlM (fun b x => (g x).foldlM f b) b := by
  induction xs generalizing b with
  | nil => rfl
  | cons x xs ih => simp only [List.flatMap_cons, List.foldlM_append, List.foldlM_cons, ih]

/-- Steps that succeed elsewhere with the same results make a run that does. -/
theorem foldlM_imp {f g : β → α → Option β} {xs : List α} {b b' : β}
    (hfg : ∀ x ∈ xs, ∀ b b', f b x = some b' → g b x = some b') (h : xs.foldlM f b = some b') :
    xs.foldlM g b = some b' := by
  induction xs generalizing b with
  | nil => exact h
  | cons x xs ih =>
    rw [List.foldlM_cons, Option.bind_eq_bind, Option.bind_eq_some_iff] at h ⊢
    obtain ⟨c, hc, h⟩ := h
    exact ⟨c, hfg x List.mem_cons_self b c hc, ih (fun y hy => hfg y (List.mem_cons_of_mem _ hy)) h⟩

theorem foldlM_eq_ok {P : β → Prop} {f : β → α → Except ε β} {xs : List α} {b b' : β}
    (step : ∀ b x b', x ∈ xs → P b → f b x = .ok b' → P b') (hb : P b)
    (h : xs.foldlM f b = .ok b') : P b' := by
  induction xs generalizing b with
  | nil =>
    cases h
    exact hb
  | cons x xs ih =>
    rw [List.foldlM_cons, bind_eq_ok] at h
    obtain ⟨c, hc, h⟩ := h
    exact ih (fun b y b' hy => step b y b' (List.mem_cons_of_mem _ hy))
      (step b x c List.mem_cons_self hb hc) h

/-- The first step that fails ends the run. -/
theorem foldlM_eq_error {f : β → α → Except ε β} {xs : List α} {b : β} {e : ε} :
    xs.foldlM f b = .error e ↔ ∃ before x after b', xs = before ++ x :: after ∧
      before.foldlM f b = .ok b' ∧ f b' x = .error e := by
  induction xs generalizing b with
  | nil => simp [pure, Except.pure]
  | cons x xs ih =>
    rw [List.foldlM_cons, bind_eq_error]
    constructor
    · rintro (hx | ⟨c, hc, hrest⟩)
      · exact ⟨[], x, xs, b, rfl, rfl, hx⟩
      · obtain ⟨before, y, after, b', rfl, hbefore, hy⟩ := ih.mp hrest
        exact ⟨x :: before, y, after, b', rfl, by simp [List.foldlM_cons, hc, hbefore], hy⟩
    · rintro ⟨before, y, after, b', he, hbefore, hy⟩
      cases before with
      | nil =>
        cases he
        cases hbefore
        exact .inl hy
      | cons x' before =>
        cases he
        rw [List.foldlM_cons] at hbefore
        obtain ⟨c, hc, hbefore⟩ := bind_eq_ok.mp hbefore
        exact .inr ⟨c, hc, ih.mpr ⟨before, y, after, b', rfl, hbefore, hy⟩⟩

/-- Something more is counted. -/
theorem countP_lt_of_mem {p q : α → Bool} {xs : List α} {x : α} (hpq : ∀ x ∈ xs, p x → q x) (hx : x ∈ xs)
    (hp : p x = false) (hq : q x) : xs.countP p < xs.countP q := by
  obtain ⟨before, after, rfl⟩ := List.append_of_mem hx
  have hbefore : before.countP p ≤ before.countP q :=
    List.countP_mono_left fun y hy => hpq y (List.mem_append_left _ hy)
  have hafter : after.countP p ≤ after.countP q :=
    List.countP_mono_left fun y hy => hpq y (List.mem_append_right _ (List.mem_cons_of_mem _ hy))
  simp only [List.countP_append, List.countP_cons, hp, hq, if_true, Bool.false_eq_true, if_false]
  omega

/-- A property that stays once it holds comes to a halt on a list: there are only so many elements left for
it to hold of. -/
theorem exists_halt {p : Nat → α → Bool} (hp : ∀ i x, p i x → p (i + 1) x) (xs : List α) :
    ∃ i ≤ xs.length, ∀ x ∈ xs, p (i + 1) x → p i x := by
  refine Classical.byContradiction fun hnever => ?_
  have more : ∀ i ≤ xs.length + 1, i ≤ xs.countP (p i) := by
    intro i hi
    induction i with
    | zero => exact Nat.zero_le _
    | succ i ih =>
      have hgrowing : ¬∀ x ∈ xs, p (i + 1) x → p i x := fun h => hnever ⟨i, by omega, h⟩
      simp only [not_forall] at hgrowing
      obtain ⟨x, hx, hnew, hold⟩ := hgrowing
      have hless := countP_lt_of_mem (fun x _ => hp i x) hx (Bool.eq_false_iff.mpr hold) hnew
      exact Nat.lt_of_le_of_lt (ih (by omega)) hless
  have hall := more _ (Nat.le_refl _)
  have hlength : xs.countP (p (xs.length + 1)) ≤ xs.length := List.countP_le_length
  omega

end ClientGen
