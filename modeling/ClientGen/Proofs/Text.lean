import Mathlib.Data.List.Chain
import Mathlib.Data.List.DropRight
import ClientGen.Text.Blank
import ClientGen.Text.Replace

/-! Texts as they are replaced in, split, trimmed and put together. -/
namespace ClientGen.Text
variable {old new s t w sep : List Char} {ls : List (List Char)} {c : Char} {p : Char → Bool}

/-! ### Replacing -/

theorem replaceFrom_length_append (skipped : List Char) :
    replaceFrom old new skipped.length (skipped ++ s) = replace old new s := by
  induction skipped with
  | nil => rfl
  | cons _ skipped ih => exact ih

@[simp]
theorem replace_nil : replace old new [] = [] := rfl

/-- An occurrence is replaced, and the scan goes on behind it. -/
theorem replace_append (ho : old ≠ []) : replace old new (old ++ s) = new ++ replace old new s := by
  cases old with
  | nil => exact (ho rfl).elim
  | cons o old =>
    have hp : (o :: old).isPrefixOf (o :: (old ++ s)) = true := by simp
    rw [List.cons_append, replace, replaceFrom, if_pos hp, List.length_cons, Nat.add_sub_cancel,
      replaceFrom_length_append]

theorem replace_cons (h : ¬old <+: c :: s) : replace old new (c :: s) = c :: replace old new s := by
  rw [← List.isPrefixOf_iff_prefix] at h
  rw [replace, replaceFrom, if_neg h]
  rfl

/-- Up to the character that an occurrence starts with, nothing is replaced. -/
theorem replace_skip {front : List Char} (hf : c ∉ front) :
    replace (c :: old) new (front ++ s) = front ++ replace (c :: old) new s := by
  induction front with
  | nil => rfl
  | cons d front ih =>
    obtain ⟨hd, hf⟩ := not_or.mp (mt List.mem_cons.mpr hf)
    have h : ¬c :: old <+: d :: (front ++ s) := fun h => hd (List.cons_prefix_cons.mp h).1
    rw [List.cons_append, replace_cons h, ih hf, List.cons_append]

/-! ### Splitting and putting together -/

/-- No part holds what the text was split at. -/
theorem forall_of_mem_splitOnP (hw : w ∈ s.splitOnP p) : ∀ c ∈ w, p c = false := by
  induction s generalizing w with
  | nil =>
    rw [List.splitOnP_nil, List.mem_singleton] at hw
    simp [hw]
  | cons c s ih =>
    rw [List.splitOnP_cons_eq_if_modifyHead] at hw
    split at hw
    · rcases List.mem_cons.mp hw with rfl | hw
      · simp
      · exact ih hw
    · rename_i hc
      obtain ⟨first, rest, hsplit⟩ := List.exists_cons_of_ne_nil (List.splitOnP_ne_nil p s)
      rw [hsplit, List.modifyHead_cons] at hw
      rcases List.mem_cons.mp hw with rfl | hw
      · exact List.forall_mem_cons.mpr ⟨by simpa using hc, ih (hsplit ▸ List.mem_cons_self)⟩
      · exact ih (hsplit ▸ List.mem_cons_of_mem _ hw)

theorem forall_mem_intercalate_iff {P : Char → Prop} (hsep : ∀ c ∈ sep, P c) :
    (∀ c ∈ sep.intercalate ls, P c) ↔ ∀ l ∈ ls, ∀ c ∈ l, P c := by
  induction ls with
  | nil => simp
  | cons l ls ih =>
    cases ls with
    | nil => simp
    | cons next ls =>
      rw [List.intercalate_cons_cons, List.forall_mem_append, List.forall_mem_append, ih,
        and_iff_left hsep, List.forall_mem_cons (l := next :: ls)]

/-- A separator that may stand beside anything leaves the parts to themselves. -/
theorem isChain_intercalate_iff {R : Char → Char → Prop} (hl : ∀ a, R a c) (hr : ∀ a, R c a) :
    List.IsChain R ([c].intercalate ls) ↔ ∀ l ∈ ls, List.IsChain R l := by
  induction ls with
  | nil => simp
  | cons l ls ih =>
    cases ls with
    | nil => simp
    | cons next ls =>
      rw [List.intercalate_cons_cons, List.append_assoc, List.singleton_append, List.isChain_append,
        List.isChain_cons, ih, List.forall_mem_cons]
      simp [hl, hr]

/-! ### Blanks -/

/-- What is not blank. -/
def visible (s : List Char) : List Char := s.filter (!isBlank ·)

theorem visible_append : visible (s ++ t) = visible s ++ visible t := List.filter_append s t

theorem visible_eq_nil_iff : visible s = [] ↔ ∀ c ∈ s, isBlank c := by
  simp [visible, List.filter_eq_nil_iff]

theorem visible_intercalate (hsep : visible sep = []) :
    visible (sep.intercalate ls) = ls.flatMap visible := by
  induction ls with
  | nil => rfl
  | cons l ls ih =>
    cases ls with
    | nil => simp
    | cons next ls =>
      rw [List.intercalate_cons_cons, visible_append, visible_append, hsep, List.append_nil, ih]
      rfl

/-- What is left of a text without the blanks around it. -/
structure IsTrimmed (s t : List Char) : Prop where
  around : ∃ front back, s = front ++ (t ++ back) ∧ visible front = [] ∧ visible back = []
  first : ∀ c ∈ t.head?, ¬isBlank c
  last : ∀ c ∈ t.getLast?, ¬isBlank c

theorem isTrimmed_trimBlank (s : List Char) : IsTrimmed s (trimBlank s) := by
  have h : trimBlank s = (s.dropWhile isBlank).rdropWhile isBlank := rfl
  rw [h]
  constructor
  · refine ⟨s.takeWhile isBlank, (s.dropWhile isBlank).rtakeWhile isBlank, ?_, ?_, ?_⟩
    · rw [List.rdropWhile_append_rtakeWhile, List.takeWhile_append_dropWhile]
    · exact visible_eq_nil_iff.mpr fun c hc => List.mem_takeWhile_imp hc
    · exact visible_eq_nil_iff.mpr fun c hc => List.mem_rtakeWhile_imp hc
  · intro c hc
    obtain ⟨back, hback⟩ := List.rdropWhile_prefix isBlank (l := s.dropWhile isBlank)
    have hu : c ∈ (s.dropWhile isBlank).head? := hback ▸ List.mem_head?_append_of_mem_head? hc
    simpa [Option.mem_def.mp hu] using List.head?_dropWhile_not isBlank s
  · intro c hc
    obtain ⟨hne, rfl⟩ := List.mem_getLast?_eq_getLast hc
    exact List.rdropWhile_last_not isBlank _ hne

theorem IsTrimmed.visible_eq (h : IsTrimmed s t) : visible s = visible t := by
  obtain ⟨front, back, rfl, hf, hb⟩ := h.around
  rw [visible_append, visible_append, hf, hb, List.append_nil, List.nil_append]

theorem IsTrimmed.isInfix (h : IsTrimmed s t) : t <:+: s := by
  obtain ⟨front, back, rfl, -, -⟩ := h.around
  exact ⟨front, back, by simp⟩

/-- The texts, trimmed, without those of which nothing is left. -/
def kept (ls : List (List Char)) : List (List Char) := (ls.map trimBlank).filter (!·.isEmpty)

theorem exists_of_mem_kept (ht : t ∈ kept ls) : ∃ l ∈ ls, IsTrimmed l t := by
  obtain ⟨l, hl, rfl⟩ := List.mem_map.mp (List.mem_filter.mp ht).1
  exact ⟨l, hl, isTrimmed_trimBlank l⟩

theorem visible_ne_nil_of_mem_kept (ht : t ∈ kept ls) : visible t ≠ [] := by
  obtain ⟨l, -, htrim⟩ := exists_of_mem_kept ht
  intro hv
  cases t with
  | nil => simp [kept] at ht
  | cons c t => exact htrim.first c rfl (visible_eq_nil_iff.mp hv c List.mem_cons_self)

theorem flatMap_visible_kept (ls : List (List Char)) : (kept ls).flatMap visible = ls.flatMap visible := by
  induction ls with
  | nil => rfl
  | cons l ls ih =>
    have hl : visible (trimBlank l) = visible l := (isTrimmed_trimBlank l).visible_eq.symm
    rw [kept, List.map_cons, List.filter_cons, List.flatMap_cons, ← ih, ← hl]
    cases htrim : trimBlank l with
    | nil => rfl
    | cons c t => rfl

end ClientGen.Text
