import ClientGen.Proofs.Casing
import ClientGen.Proofs.Json.Literal
import ClientGen.TypeScript.Name

/-! Lists of literals, of keys and of entries. Whatever the texts are that they stand for, and whatever these
imitate, they show where they end, so that all of them are found again in what is written. -/
namespace ClientGen
open Letter
variable {β : Type} {P : Char → Prop} {D : β → Prop} {write : β → List Char} {c : Char}
  {sep r r' : List Char} {as bs : List β}

theorem forall_mem_head?_cons {s : List Char} : (∀ a ∈ (c :: s).head?, P a) ↔ P c := by simp

/-! ### Lists -/

/-- A way to write things that shows where they end: nothing written begins with a mark, and those of `D` are
found again in front of one. -/
structure ShowsEnds (P : Char → Prop) (D : β → Prop) (write : β → List Char) : Prop where
  start : ∀ x, ∃ a l, write x = a :: l ∧ ¬P a
  inj : ∀ {x y q q'}, D x → D y → (∀ a ∈ q.head?, P a) → (∀ a ∈ q'.head?, P a) →
    write x ++ q = write y ++ q' → x = y ∧ q = q'

namespace ShowsEnds

theorem not_mark_of_list (h : ShowsEnds P D write) (sep : List Char) (has : as ≠ []) :
    ∃ a l, sep.intercalate (as.map write) = a :: l ∧ ¬P a := by
  cases as with
  | nil => exact (has rfl).elim
  | cons x as =>
    obtain ⟨a, l, hx, ha⟩ := h.start x
    cases as with
    | nil => exact ⟨a, l, by simpa using hx, ha⟩
    | cons y as =>
      refine ⟨a, l ++ (sep ++ sep.intercalate ((y :: as).map write)), ?_, ha⟩
      rw [List.map_cons, List.map_cons, List.intercalate_cons_cons, hx]
      simp

/-- A list with a separator ends before any mark but the one that the separator begins with. -/
theorem list (h : ShowsEnds P D write) (hc : P c) (has : ∀ x ∈ as, D x) (hbs : ∀ x ∈ bs, D x)
    (hr : ∀ a ∈ r.head?, P a ∧ a ≠ c) (hr' : ∀ a ∈ r'.head?, P a ∧ a ≠ c)
    (he : (c :: sep).intercalate (as.map write) ++ r = (c :: sep).intercalate (bs.map write) ++ r') :
    as = bs ∧ r = r' := by
  have hempty {xs : List β} {q q' : List Char} (hq : ∀ a ∈ q.head?, P a ∧ a ≠ c)
      (hx : (c :: sep).intercalate (xs.map write) ++ q' = q) : xs = [] := by
    by_contra hne
    obtain ⟨a, l, hl, ha⟩ := h.not_mark_of_list (c :: sep) hne
    rw [hl] at hx
    subst hx
    exact ha (hq a rfl).1
  -- What follows an empty list begins with a mark, but no other list does.
  have hne : as = [] ↔ bs = [] := by
    constructor
    · rintro rfl
      exact hempty hr he.symm
    · rintro rfl
      exact hempty hr' he
  have hsame := forall₂_of_intercalate (R := Eq) hne hc hr hr'
    (fun x hx y hy _ _ => h.inj (has x hx) (hbs y hy)) he
  exact ⟨List.forall₂_eq_eq_eq ▸ hsame.1, hsame.2⟩

end ShowsEnds

/-- What no identifier holds, and no literal begins with. -/
def IsMark (c : Char) : Prop := ¬(isAsciiAlnum c ∨ c = '_' ∨ c = '$' ∨ c = '"')
deriving Decidable

theorem exists_quoted (s : String) : ∃ l, (quoted s).toList = '"' :: l := ⟨_, String.toList_ofList⟩

theorem showsEnds_quoted : ShowsEnds IsMark (fun _ => True) fun s => (quoted s).toList where
  start s := by
    obtain ⟨l, hl⟩ := exists_quoted s
    exact ⟨'"', l, hl, by decide⟩
  inj _ _ _ _ he := Json.quoted_append_inj he

/-- Texts that show where they end are found again in a list with commas. -/
theorem commas_injective {write : String → String}
    (h : ShowsEnds IsMark (fun _ => True) fun s => (write s).toList) :
    Function.Injective fun vs : List String => ", ".intercalate (vs.map write) := by
  intro vs ws he
  have hlists : [',', ' '].intercalate (vs.map fun s => (write s).toList) ++ [] =
      [',', ' '].intercalate (ws.map fun s => (write s).toList) ++ [] := by
    simpa [String.toList_intercalate, Function.comp_def] using congrArg String.toList he
  exact (h.list (by decide) (by simp) (by simp) (by simp) (by simp) hlists).1

/-! ### Keys -/

namespace TypeScript
variable {a b s : String}

/-- Letters, digits, underscores and dollars of ASCII, and no digit first. A reserved word is a key too. -/
structure IsIdentifier (s : String) : Prop where
  first : ∃ c ∈ s.toList.head?, c.isDigit = false
  letters : ∀ c ∈ s.toList, isAsciiAlnum c ∨ c = '_' ∨ c = '$'

theorem isIdentifier_cons : isIdentifier (c :: r) ↔
    (isAsciiLetter c ∨ c = '_' ∨ c = '$') ∧ ∀ d ∈ r, isAsciiAlnum d ∨ d = '_' ∨ d = '$' := by
  simp [isIdentifier, or_assoc]

theorem isAsciiLetter_iff : isAsciiLetter c ↔ isAsciiAlnum c ∧ c.isDigit = false := by
  have hdigit (h : isAsciiAlnum c) : isAsciiLetter c ↔ c.isDigit = false :=
    ascii_forall (P := fun c => isAsciiAlnum c → (isAsciiLetter c ↔ c.isDigit = false)) (by decide +kernel)
      (lt_of_isAsciiAlnum h) h
  have halnum (h : isAsciiLetter c) : isAsciiAlnum c := by
    rw [isAsciiLetter, Bool.or_eq_true] at h
    simp only [isAsciiAlnum, Bool.or_eq_true]
    tauto
  exact ⟨fun h => ⟨halnum h, (hdigit (halnum h)).mp h⟩, fun h => (hdigit h.1).mpr h.2⟩

theorem isIdentifier_iff : isIdentifier s.toList ↔ IsIdentifier s := by
  cases hs : s.toList with
  | nil => exact ⟨nofun, fun h => by simpa [hs] using h.first⟩
  | cons c rest =>
    rw [isIdentifier_cons, isAsciiLetter_iff]
    constructor
    · rintro ⟨hc, hrest⟩
      refine ⟨⟨c, by simp [hs], ?_⟩, ?_⟩
      · rcases hc with hc | rfl | rfl
        · exact hc.2
        · decide
        · decide
      · rw [hs]
        exact List.forall_mem_cons.mpr ⟨hc.imp_left And.left, hrest⟩
    · rintro ⟨⟨d, hd, hdigit⟩, hletters⟩
      rw [hs] at hd hletters
      obtain rfl := Option.some.inj hd
      obtain ⟨hc, hrest⟩ := List.forall_mem_cons.mp hletters
      exact ⟨hc.imp_left fun h => ⟨h, hdigit⟩, hrest⟩

namespace IsIdentifier

theorem not_mark (h : IsIdentifier s) : ∀ c ∈ s.toList, ¬IsMark c := by
  intro c hc hmark
  have := h.letters c hc
  exact hmark (by tauto)

theorem exists_cons (h : IsIdentifier s) : ∃ c l, s.toList = c :: l ∧ c ≠ '"' := by
  obtain ⟨c, hc, -⟩ := h.first
  obtain ⟨l, hl⟩ := List.head?_eq_some_iff.mp hc
  refine ⟨c, l, hl, ?_⟩
  rintro rfl
  exact absurd (h.letters '"' (by simp [hl])) (by decide)

end IsIdentifier

theorem key_cases (s : String) : IsIdentifier s ∧ key s = s ∨ ¬IsIdentifier s ∧ key s = quoted s := by
  rw [key, ← isIdentifier_iff]
  split
  · exact .inl ⟨‹_›, rfl⟩
  · exact .inr ⟨‹_›, rfl⟩

/-- An identifier ends at a mark, and a literal at its quote. -/
theorem showsEnds_key : ShowsEnds IsMark (fun _ => True) fun s => (key s).toList where
  start s := by
    rcases key_cases s with ⟨hs, hkey⟩ | ⟨-, hkey⟩
    · obtain ⟨c, l, hl, -⟩ := hs.exists_cons
      exact ⟨c, l, by rw [hkey, hl], hs.not_mark c (by simp [hl])⟩
    · rw [hkey]
      exact showsEnds_quoted.start s
  inj {x y q q'} _ _ hq hq' he := by
    have apart {s t : String} {q q' : List Char} (hs : IsIdentifier s) :
        s.toList ++ q ≠ (quoted t).toList ++ q' := by
      obtain ⟨c, l, hl, hc⟩ := hs.exists_cons
      obtain ⟨m, hm⟩ := exists_quoted t
      rw [hl, hm]
      exact fun h => hc (List.cons.inj h).1
    rcases key_cases x with ⟨hx, hkx⟩ | ⟨-, hkx⟩ <;> rcases key_cases y with ⟨hy, hky⟩ | ⟨-, hky⟩ <;>
      rw [hkx, hky] at he
    · obtain ⟨hxy, hrest⟩ := append_inj_of_marks hx.not_mark hy.not_mark hq hq' he
      exact ⟨String.toList_inj.mp hxy, hrest⟩
    · exact (apart hx he).elim
    · exact (apart hy he.symm).elim
    · exact Json.quoted_append_inj he

theorem key_inj : key a = key b ↔ a = b := by
  refine ⟨fun h => ?_, fun h => h ▸ rfl⟩
  have hsame := congrArg (fun s => s.toList ++ []) h
  exact (showsEnds_key.inj trivial trivial (by simp) (by simp) hsame).1

end TypeScript

/-! ### Entries -/

/-- What ends an entry, or the list of them. -/
def closers : List Char := [',', ' ', '\x7d']

theorem mark_of_mem_closers : ∀ c ∈ closers, IsMark c := List.forall_iff_forall_mem.mp (by decide)

/-- No value holds what ends an entry. -/
def PlainValues (entries : List (String × String)) : Prop := ∀ e ∈ entries, ∀ c ∈ e.2.toList, c ∉ closers

theorem ShowsEnds.entry {write : String → String}
    (h : ShowsEnds IsMark (fun _ => True) fun s => (write s).toList) :
    ShowsEnds (· ∈ closers) (fun e : String × String => ∀ c ∈ e.2.toList, c ∉ closers)
      fun e => (write e.1 ++ ": " ++ e.2).toList where
  start e := by
    obtain ⟨a, l, hl, ha⟩ := h.start e.1
    exact ⟨a, l ++ (": ".toList ++ e.2.toList), by simp [hl], mt (mark_of_mem_closers a) ha⟩
  inj {x y q q'} hx hy hq hq' he := by
    have hcolon (t : List Char) : ∀ a ∈ (':' :: t).head?, IsMark a :=
      forall_mem_head?_cons.mpr (by decide)
    have hparts : (write x.1).toList ++ ':' :: (' ' :: (x.2.toList ++ q)) =
        (write y.1).toList ++ ':' :: (' ' :: (y.2.toList ++ q')) := by simpa using he
    obtain ⟨hname, hvalue⟩ := h.inj trivial trivial (hcolon _) (hcolon _) hparts
    simp only [List.cons.injEq, true_and] at hvalue
    obtain ⟨hvalue, hrest⟩ := append_inj_of_marks hx hy hq hq' hvalue
    exact ⟨Prod.ext hname (String.toList_inj.mp hvalue), hrest⟩

end ClientGen
