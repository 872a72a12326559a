import Mathlib.Data.List.Forall2

/-! Texts that are written one after the other, and read back up to a mark. -/
namespace ClientGen
variable {α : Type} {P : α → Prop} {c : α} {xs ys r r' : List α}

/-- Two texts that go up to the first mark are found again in what is written. -/
theorem append_inj_of_marks (hx : ∀ a ∈ xs, ¬P a) (hy : ∀ a ∈ ys, ¬P a) (hr : ∀ a ∈ r.head?, P a)
    (hr' : ∀ a ∈ r'.head?, P a) (h : xs ++ r = ys ++ r') : xs = ys ∧ r = r' := by
  induction xs generalizing ys with
  | nil =>
    cases ys with
    | nil => exact ⟨rfl, h⟩
    | cons b ys =>
      obtain rfl : r = b :: (ys ++ r') := h
      exact (hy b List.mem_cons_self (hr b rfl)).elim
  | cons a xs ih =>
    cases ys with
    | nil =>
      obtain rfl : a :: (xs ++ r) = r' := h
      exact (hx a List.mem_cons_self (hr' a rfl)).elim
    | cons b ys =>
      obtain ⟨rfl, ht⟩ : a = b ∧ xs ++ r = ys ++ r' := List.cons.inj h
      obtain ⟨rfl, hr⟩ := ih (List.forall_mem_cons.mp hx).2 (List.forall_mem_cons.mp hy).2 ht
      exact ⟨rfl, hr⟩

/-- The same, with one mark that is part of the text. -/
theorem append_cons_inj (hx : c ∉ xs) (hy : c ∉ ys) (h : xs ++ c :: r = ys ++ c :: r') :
    xs = ys ∧ r = r' := by
  have notMark {zs : List α} (hz : c ∉ zs) : ∀ a ∈ zs, ¬a = c := fun a ha he => hz (he ▸ ha)
  obtain ⟨hxy, hr⟩ := append_inj_of_marks (notMark hx) (notMark hy) (by simp) (by simp) h
  exact ⟨hxy, (List.cons.inj hr).2⟩

/-- With a separator in front, a list is written part by part. -/
theorem append_intercalate {sep : List α} {ls : List (List α)} (h : ls ≠ []) :
    sep ++ sep.intercalate ls = ls.flatMap (sep ++ ·) := by
  induction ls with
  | nil => exact (h rfl).elim
  | cons l ls ih =>
    cases ls with
    | nil => simp
    | cons l' ls =>
      rw [List.intercalate_cons_cons, List.flatMap_cons, ← ih (List.cons_ne_nil _ _)]
      simp

/-- A list that is written part by part is found again, where each part is found again from any text
that goes on as the list may, and no end of the list looks like one more part. -/
theorem forall₂_of_flatMap {β : Type} {S P : α → Prop} {R : β → β → Prop} {g : β → List α}
    {as bs : List β}
    (hS : ∀ a, S a → P a) (has : ∀ x ∈ as, ∃ a l, g x = a :: l ∧ S a)
    (hbs : ∀ y ∈ bs, ∃ b l, g y = b :: l ∧ S b)
    (hr : ∀ a ∈ r.head?, P a ∧ ¬S a) (hr' : ∀ a ∈ r'.head?, P a ∧ ¬S a)
    (step : ∀ x ∈ as, ∀ y ∈ bs, ∀ q q' : List α, (∀ a ∈ q.head?, P a) → (∀ a ∈ q'.head?, P a) →
      g x ++ q = g y ++ q' → R x y ∧ q = q')
    (h : as.flatMap g ++ r = bs.flatMap g ++ r') : List.Forall₂ R as bs ∧ r = r' := by
  have next {cs : List β} {q : List α} (hcs : ∀ y ∈ cs, ∃ b l, g y = b :: l ∧ S b)
      (hq : ∀ a ∈ q.head?, P a ∧ ¬S a) : ∀ a ∈ (cs.flatMap g ++ q).head?, P a := by
    cases cs with
    | nil => exact fun a ha => (hq a ha).1
    | cons y cs =>
      obtain ⟨b, l, hb, hs⟩ := hcs y List.mem_cons_self
      simpa [hb] using hS b hs
  induction as generalizing bs with
  | nil =>
    cases bs with
    | nil => exact ⟨.nil, h⟩
    | cons y bs =>
      obtain ⟨b, l, hb, hs⟩ := hbs y List.mem_cons_self
      obtain rfl : r = b :: (l ++ (bs.flatMap g ++ r')) := by simpa [hb] using h
      exact ((hr b rfl).2 hs).elim
  | cons x as ih =>
    cases bs with
    | nil =>
      obtain ⟨a, l, ha, hs⟩ := has x List.mem_cons_self
      obtain rfl : a :: (l ++ (as.flatMap g ++ r)) = r' := by simpa [ha] using h
      exact ((hr' a rfl).2 hs).elim
    | cons y bs =>
      rw [List.flatMap_cons, List.flatMap_cons, List.append_assoc, List.append_assoc] at h
      have has := (List.forall_mem_cons.mp has).2
      have hbs := (List.forall_mem_cons.mp hbs).2
      obtain ⟨hxy, h⟩ := step x List.mem_cons_self y List.mem_cons_self _ _ (next has hr)
        (next hbs hr') h
      obtain ⟨hrest, hend⟩ := ih has hbs (fun x hx y hy =>
        step x (List.mem_cons_of_mem _ hx) y (List.mem_cons_of_mem _ hy)) h
      exact ⟨.cons hxy hrest, hend⟩

/-- The same, where the parts are separated by a text that begins with a mark, for lists that are empty
together. -/
theorem forall₂_of_intercalate {β : Type} {R : β → β → Prop} {g : β → List α} {sep : List α} {as bs : List β}
    (hne : as = [] ↔ bs = []) (hc : P c) (hr : ∀ a ∈ r.head?, P a ∧ a ≠ c)
    (hr' : ∀ a ∈ r'.head?, P a ∧ a ≠ c)
    (step : ∀ x ∈ as, ∀ y ∈ bs, ∀ q q' : List α, (∀ a ∈ q.head?, P a) → (∀ a ∈ q'.head?, P a) →
      g x ++ q = g y ++ q' → R x y ∧ q = q')
    (h : (c :: sep).intercalate (as.map g) ++ r = (c :: sep).intercalate (bs.map g) ++ r') :
    List.Forall₂ R as bs ∧ r = r' := by
  by_cases has : as = []
  · obtain rfl := has
    obtain rfl := hne.mp rfl
    exact ⟨.nil, h⟩
  · have hbs : bs ≠ [] := mt hne.mpr has
    have marked {cs : List β} (hcs : cs ≠ []) :
        (c :: sep) ++ (c :: sep).intercalate (cs.map g) = cs.flatMap fun x => c :: sep ++ g x := by
      rw [append_intercalate (by simpa using hcs), List.flatMap_map]
    have hsep := congrArg (c :: sep ++ ·) h
    simp only [← List.append_assoc, marked has, marked hbs] at hsep
    refine forall₂_of_flatMap (S := (· = c)) (P := P) (fun _ ha => ha ▸ hc)
      (fun x _ => ⟨c, sep ++ g x, rfl, rfl⟩) (fun y _ => ⟨c, sep ++ g y, rfl, rfl⟩) hr hr' ?_ hsep
    intro x hx y hy q q' hq hq' hxy
    simp only [List.cons_append, List.append_assoc, List.cons.injEq, true_and] at hxy
    exact step x hx y hy q q' hq hq' (List.append_cancel_left hxy)

/-- A list that is written with a separator is found again, where each part is found again whatever
follows it. -/
theorem intercalate_inj {β : Type} {sep : List α} {g : β → List α} {as bs : List β} (hsep : sep ≠ [])
    (has : as ≠ []) (hbs : bs ≠ []) (hg : ∀ x y q q', g x ++ q = g y ++ q' → x = y ∧ q = q')
    (h : sep.intercalate (as.map g) = sep.intercalate (bs.map g)) : as = bs := by
  obtain ⟨c, sep, rfl⟩ := List.exists_cons_of_ne_nil hsep
  have hends : (c :: sep).intercalate (as.map g) ++ [] = (c :: sep).intercalate (bs.map g) ++ [] := by rw [h]
  have hsame := forall₂_of_intercalate (P := fun _ => True) (R := Eq) (by simp [has, hbs]) trivial (by simp)
    (by simp) (fun x _ y _ q q' _ _ => hg x y q q') hends
  exact List.forall₂_eq_eq_eq ▸ hsame.1

end ClientGen
