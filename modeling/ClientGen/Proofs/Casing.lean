import Mathlib.Data.List.Forall2
import ClientGen.Text.Identifier
import ClientGen.Proofs.Marks

/-! The casings of a name. Each of them tells the words of the name, in lower case, and nothing else. -/
namespace ClientGen
open Letter
variable {c d : Char} {s t : List Char} {w v : List Char} {ws vs : List (List Char)}

/-! ### ASCII letters -/

/-- What holds of all ASCII characters, value by value. -/
theorem ascii_forall {P : Char → Prop} (h : ∀ n, n < 128 → P (Char.ofNat n)) (hc : c.toNat < 128) :
    P c := by
  have hn := h c.toNat hc
  rwa [Char.ofNat_toNat] at hn

theorem lt_of_isAsciiAlnum (h : isAsciiAlnum c) : c.toNat < 128 := by
  have hdigit (hc : c.isDigit) : c.toNat ≤ 57 := (Char.isDigit_iff_toNat.mp hc).2
  have hlower (hc : c.isLower) : c.toNat ≤ 122 :=
    UInt32.le_iff_toNat_le.mp (of_decide_eq_true (Bool.and_eq_true_iff.mp hc).2)
  have hupper (hc : c.isUpper) : c.toNat ≤ 90 := UInt32.le_iff_toNat_le.mp (of_decide_eq_true hc).2
  simp only [isAsciiAlnum, Bool.or_eq_true] at h
  rcases h with (hc | hc) | hc
  · have := hdigit hc
    omega
  · have := hlower hc
    omega
  · have := hupper hc
    omega

/-- A letter of a lowered word. -/
def isLowered (c : Char) : Bool := c.isLower || c.isDigit

theorem isAsciiAlnum_of_isLowered (h : isLowered c) : isAsciiAlnum c := by
  simp only [isLowered, Bool.or_eq_true] at h
  simp only [isAsciiAlnum, Bool.or_eq_true]
  tauto

/-- What the casings do with a letter or digit. -/
theorem ascii_casing (h : isAsciiAlnum c) : isLowered c.toLower ∧ c.toLower.toUpper = c.toUpper ∧
    (isUpper c → c.toLower.isLower) ∧ lower c = [c.toLower] ∧ c ≠ 'Σ' ∧ isAsciiAlnum c.toUpper :=
  ascii_forall (P := fun c => isAsciiAlnum c → isLowered c.toLower ∧ c.toLower.toUpper = c.toUpper ∧
    (isUpper c → c.toLower.isLower) ∧ lower c = [c.toLower] ∧ c ≠ 'Σ' ∧ isAsciiAlnum c.toUpper)
      (by decide +kernel)
    (lt_of_isAsciiAlnum h) h

theorem lowered_casing (h : isLowered c) : c.toLower = c ∧ c.toUpper.toLower = c ∧ ¬c.isUpper ∧
    isUpper c = false ∧ isAlnum c ∧ c ≠ '_' ∧ (c.isLower → c.toUpper.isUpper) :=
  ascii_forall (P := fun c => isLowered c → c.toLower = c ∧ c.toUpper.toLower = c ∧ ¬c.isUpper ∧
    isUpper c = false ∧ isAlnum c ∧ c ≠ '_' ∧ (c.isLower → c.toUpper.isUpper)) (by decide +kernel)
    (lt_of_isAsciiAlnum (isAsciiAlnum_of_isLowered h)) h

theorem isAlnum_of_ascii (h : isAsciiAlnum c) : isAlnum c := by
  have hlt : c.toNat < 0x80 := lt_of_isAsciiAlnum h
  rw [isAlnum, if_pos hlt, h]

namespace Words

/-! ### Splitting -/

/-- Letters are neither lost nor moved, and every word after the first begins with a capital. -/
theorem splitFrom_spec (r : Run) (word s : List Char) (hs : s ≠ []) (hr : r = .upper → word ≠ []) :
    (splitFrom r word s).flatten = word.reverse ++ s ∧
    ∃ first rest, splitFrom r word s = first :: rest ∧ first.head? = (word.reverse ++ s).head? ∧
      ∀ v ∈ rest, ∃ c ∈ v.head?, isUpper c := by
  fun_induction splitFrom r word s with
  | case1 => exact (hs rfl).elim
  | case2 r word c => exact ⟨by simp, _, [], rfl, by simp, by simp⟩
  | case3 r word c d rest h ih =>
    obtain ⟨hflat, first, others, hsplit, hhead, hothers⟩ := ih (by simp) (by simp)
    refine ⟨by simp [hflat], _, _, rfl, ?_, ?_⟩
    · rw [List.reverse_cons]
      cases word.reverse <;> rfl
    · rw [hsplit]
      exact List.forall_mem_cons.mpr ⟨⟨d, by simp [hhead], h.2⟩, hothers⟩
  | case4 r word c d rest _ h ih =>
    obtain ⟨hflat, first, others, hsplit, hhead, hothers⟩ := ih (by simp) (by simp)
    refine ⟨by simp [hflat], _, _, rfl, ?_, ?_⟩
    · have hne : word.reverse ≠ [] := by simpa using hr h.1
      rw [List.head?_append_of_ne_nil _ hne]
    · rw [hsplit]
      exact List.forall_mem_cons.mpr ⟨⟨c, by simp [hhead], h.2.1⟩, hothers⟩
  | case5 r word c d rest _ _ ih =>
    obtain ⟨hflat, first, others, hsplit, hhead, hothers⟩ := ih (by simp) (by simp)
    exact ⟨by simp [hflat], first, others, hsplit, by simpa using hhead, hothers⟩

/-- One word with no capital but its first letter is left whole. -/
theorem splitFrom_word {r : Run} {word : List Char} (hs : s ≠ []) (hhead : ∀ c ∈ s.head?, isUpper c → r ≠ .upper)
    (htail : ∀ c ∈ s.tail, isUpper c = false) : splitFrom r word s = [word.reverse ++ s] := by
  fun_induction splitFrom r word s with
  | case1 => exact (hs rfl).elim
  | case2 r word c => simp
  | case3 r word c d rest h => simp [htail d List.mem_cons_self] at h
  | case4 r word c d rest _ h => exact (hhead c rfl h.2.1 h.1).elim
  | case5 r word c d rest _ _ ih =>
    obtain ⟨hd, hrest⟩ := List.forall_mem_cons.mp htail
    rw [ih (List.cons_ne_nil d rest) (fun a ha hcase => by simp_all) hrest]
    simp

/-! ### Lowered words -/

/-- A word that follows another begins with a letter. -/
def IsNext (v : List Char) : Prop := (∃ c ∈ v.head?, c.isLower) ∧ ∀ c ∈ v, isLowered c

/-- Words as they come out of a name. -/
def IsLowered : List (List Char) → Prop
  | [] => False
  | w :: ws => w ≠ [] ∧ (∀ c ∈ w, isLowered c) ∧ ∀ v ∈ ws, IsNext v

/-- With a capital. -/
def raised : List Char → List Char
  | [] => []
  | c :: l => c.toUpper :: l

theorem lowered_eq_map (h : ∀ c ∈ w, isAsciiAlnum c) : lowered w = w.map Char.toLower := by
  fun_induction lowered w with
  | case1 => rfl
  | case2 => exact absurd rfl (ascii_casing (h _ List.mem_cons_self)).2.2.2.2.1
  | case3 c => simp [(ascii_casing (h _ List.mem_cons_self)).2.2.2.1]
  | case4 c d l ih =>
    obtain ⟨hc, hl⟩ := List.forall_mem_cons.mp h
    rw [ih hl, (ascii_casing hc).2.2.2.1, List.map_cons (l := d :: l), List.singleton_append]

theorem capitalized_eq_raised (h : ∀ c ∈ w, isAsciiAlnum c) : capitalized w = raised (lowered w) := by
  rw [lowered_eq_map h]
  cases w with
  | nil => rfl
  | cons c l =>
    obtain ⟨hc, hl⟩ := List.forall_mem_cons.mp h
    rw [capitalized, lowered_eq_map hl, List.map_cons, raised, (ascii_casing hc).2.1]

theorem ofText_ascii (h : ∀ c ∈ s, isAsciiAlnum c) : ofText s = splitFrom .start [] s := by
  have hone : s.splitOnP (fun c => !isAlnum c) = [s] :=
    List.splitOnP_eq_singleton fun c hc => by simp [isAlnum_of_ascii (h c hc)]
  rw [ofText, hone, List.flatMap_singleton]

theorem ascii_of_mem_ofText (hs : s ≠ []) (h : ∀ c ∈ s, isAsciiAlnum c) :
    ∀ w ∈ ofText s, ∀ c ∈ w, isAsciiAlnum c := by
  intro w hw c hc
  obtain ⟨hflat, -⟩ := splitFrom_spec .start [] s hs (by simp)
  rw [ofText_ascii h] at hw
  exact h c (by simpa [hflat] using List.mem_flatten_of_mem hw hc)

theorem isLowered_words (hs : s ≠ []) (h : ∀ c ∈ s, isAsciiAlnum c) :
    IsLowered ((ofText s).map lowered) := by
  have hascii := ascii_of_mem_ofText hs h
  have lower_mem {w : List Char} (hw : w ∈ ofText s) : ∀ c ∈ lowered w, isLowered c := by
    rw [lowered_eq_map (hascii w hw)]
    intro c hc
    obtain ⟨d, hd, rfl⟩ := List.mem_map.mp hc
    exact (ascii_casing (hascii w hw d hd)).1
  obtain ⟨-, first, rest, hsplit, hhead, hrest⟩ := splitFrom_spec .start [] s hs (by simp)
  rw [← ofText_ascii h] at hsplit
  rw [hsplit] at hascii lower_mem ⊢
  refine ⟨?_, lower_mem List.mem_cons_self, fun v hv => ?_⟩
  · have hne : first ≠ [] := fun he => hs (by simpa [he] using hhead.symm)
    simpa [lowered_eq_map (hascii first List.mem_cons_self)] using hne
  · obtain ⟨w, hw, rfl⟩ := List.mem_map.mp hv
    refine ⟨?_, lower_mem (List.mem_cons_of_mem _ hw)⟩
    have hw' := hascii w (List.mem_cons_of_mem _ hw)
    obtain ⟨c, hc, hup⟩ := hrest w hw
    rw [lowered_eq_map hw']
    exact ⟨c.toLower, by simpa using ⟨c, hc, rfl⟩,
      (ascii_casing (hw' c (List.mem_of_mem_head? hc))).2.2.1 hup⟩

/-! ### Casings -/

def joinedPascal (ws : List (List Char)) : List Char := ws.flatMap raised

def joinedCamel : List (List Char) → List Char
  | [] => []
  | w :: ws => w ++ joinedPascal ws

theorem pascal_eq (hs : s ≠ []) (h : ∀ c ∈ s, isAsciiAlnum c) :
    pascal s = joinedPascal ((ofText s).map lowered) := by
  rw [pascal, joinedPascal, List.flatMap_map, List.flatMap_def]
  congr 1
  exact List.map_congr_left fun w hw => capitalized_eq_raised (ascii_of_mem_ofText hs h w hw)

theorem camel_eq (hs : s ≠ []) (h : ∀ c ∈ s, isAsciiAlnum c) :
    camel s = joinedCamel ((ofText s).map lowered) := by
  have hascii := ascii_of_mem_ofText hs h
  rw [camel]
  cases hw : ofText s with
  | nil => rfl
  | cons w ws =>
    rw [hw] at hascii
    rw [List.map_cons, joinedCamel, joinedPascal, List.flatMap_map, List.flatMap_def]
    dsimp only
    congr 2
    exact List.map_congr_left fun v hv => capitalized_eq_raised (hascii v (List.mem_cons_of_mem _ hv))

theorem IsNext.raised_eq (h : IsNext v) : ∃ c l, raised v = c :: l ∧ c.isUpper := by
  obtain ⟨⟨c, hc, hlow⟩, hv⟩ := h
  cases v with
  | nil => cases hc
  | cons d l =>
    obtain rfl : d = c := by simpa using hc
    exact ⟨_, l, rfl, (lowered_casing (hv d List.mem_cons_self)).2.2.2.2.2.2 hlow⟩

theorem not_upper_of_lowered (h : ∀ c ∈ w, isLowered c) : ∀ c ∈ w, ¬c.isUpper :=
  fun c hc => (lowered_casing (h c hc)).2.2.1

/-- A raised word is found again before a capital. -/
theorem raised_append_inj {q q' : List Char} (hw : w ≠ []) (hv : v ≠ []) (hlw : ∀ c ∈ w, isLowered c)
    (hlv : ∀ c ∈ v, isLowered c) (hq : ∀ c ∈ q.head?, c.isUpper) (hq' : ∀ c ∈ q'.head?, c.isUpper)
    (h : raised w ++ q = raised v ++ q') : w = v ∧ q = q' := by
  cases w with
  | nil => exact (hw rfl).elim
  | cons c l =>
    cases v with
    | nil => exact (hv rfl).elim
    | cons d m =>
      obtain ⟨hc, hl⟩ := List.forall_mem_cons.mp hlw
      obtain ⟨hd, hm⟩ := List.forall_mem_cons.mp hlv
      obtain ⟨hcd, hrest⟩ : c.toUpper = d.toUpper ∧ l ++ q = m ++ q' := List.cons.inj h
      obtain ⟨rfl, rfl⟩ := append_inj_of_marks (not_upper_of_lowered hl) (not_upper_of_lowered hm)
        hq hq' hrest
      have hfirst : c = d := by rw [← (lowered_casing hc).2.1, hcd, (lowered_casing hd).2.1]
      exact ⟨by rw [hfirst], rfl⟩

theorem joinedPascal_head (h : ∀ v ∈ ws, IsNext v) : ∀ c ∈ (joinedPascal ws).head?, c.isUpper := by
  cases ws with
  | nil => simp [joinedPascal]
  | cons v vs =>
    obtain ⟨c, l, hv, hc⟩ := (h v List.mem_cons_self).raised_eq
    simp [joinedPascal, hv, hc]

theorem IsNext.ne_nil (h : IsNext v) : v ≠ [] := by
  rintro rfl
  obtain ⟨⟨c, hc, _⟩, _⟩ := h
  cases hc

/-- The words after the first show where each of them begins. -/
theorem joinedPascal_next_inj (hws : ∀ v ∈ ws, IsNext v) (hvs : ∀ v ∈ vs, IsNext v)
    (h : joinedPascal ws = joinedPascal vs) : ws = vs := by
  have hflat : ws.flatMap raised ++ [] = vs.flatMap raised ++ [] := by simpa [joinedPascal] using h
  have hwords := forall₂_of_flatMap (S := (·.isUpper)) (P := (·.isUpper)) (R := Eq) (fun _ hc => hc)
    (fun w hw => (hws w hw).raised_eq) (fun v hv => (hvs v hv).raised_eq) (by simp) (by simp) ?_ hflat
  · exact List.forall₂_eq_eq_eq ▸ hwords.1
  · intro w hw v hv q q' hq hq' he
    exact raised_append_inj (hws w hw).ne_nil (hvs v hv).ne_nil (hws w hw).2 (hvs v hv).2 hq hq' he

theorem joinedPascal_inj (hws : IsLowered ws) (hvs : IsLowered vs)
    (h : joinedPascal ws = joinedPascal vs) : ws = vs := by
  cases ws with
  | nil => exact hws.elim
  | cons w ws =>
    cases vs with
    | nil => exact hvs.elim
    | cons v vs =>
      obtain ⟨hw, hlw, hws⟩ := hws
      obtain ⟨hv, hlv, hvs⟩ := hvs
      obtain ⟨rfl, hrest⟩ := raised_append_inj hw hv hlw hlv (joinedPascal_head hws)
        (joinedPascal_head hvs) h
      rw [joinedPascal_next_inj hws hvs hrest]

theorem joinedCamel_inj (hws : IsLowered ws) (hvs : IsLowered vs)
    (h : joinedCamel ws = joinedCamel vs) : ws = vs := by
  cases ws with
  | nil => exact hws.elim
  | cons w ws =>
    cases vs with
    | nil => exact hvs.elim
    | cons v vs =>
      obtain ⟨-, hlw, hws⟩ := hws
      obtain ⟨-, hlv, hvs⟩ := hvs
      obtain ⟨rfl, hrest⟩ := append_inj_of_marks (not_upper_of_lowered hlw) (not_upper_of_lowered hlv)
        (joinedPascal_head hws) (joinedPascal_head hvs) h
      rw [joinedPascal_next_inj hws hvs hrest]

theorem IsLowered.letters (h : IsLowered ws) : ws ≠ [] ∧ ∀ v ∈ ws, v ≠ [] ∧ ∀ c ∈ v, isLowered c := by
  cases ws with
  | nil => exact h.elim
  | cons w ws =>
    obtain ⟨hw, hlw, hws⟩ := h
    exact ⟨List.cons_ne_nil w ws, List.forall_mem_cons.mpr
      ⟨⟨hw, hlw⟩, fun v hv => ⟨(hws v hv).ne_nil, (hws v hv).2⟩⟩⟩

theorem ascii_of_lowered (h : ∀ c ∈ w, isLowered c) : ∀ c ∈ w, isAsciiAlnum c :=
  fun c hc => isAsciiAlnum_of_isLowered (h c hc)

theorem ascii_raised (h : ∀ c ∈ w, isLowered c) : ∀ c ∈ raised w, isAsciiAlnum c := by
  cases w with
  | nil => exact fun _ hc => nomatch hc
  | cons c l =>
    obtain ⟨hc, hl⟩ := List.forall_mem_cons.mp (ascii_of_lowered h)
    exact List.forall_mem_cons.mpr ⟨(ascii_casing hc).2.2.2.2.2, hl⟩

theorem ascii_joinedPascal (h : ∀ v ∈ ws, ∀ c ∈ v, isLowered c) :
    ∀ c ∈ joinedPascal ws, isAsciiAlnum c := by
  intro c hc
  obtain ⟨v, hv, hc⟩ := List.mem_flatMap.mp hc
  exact ascii_raised (h v hv) c hc

theorem ascii_joinedCamel (h : IsLowered ws) : ∀ c ∈ joinedCamel ws, isAsciiAlnum c := by
  cases ws with
  | nil => exact h.elim
  | cons w ws =>
    obtain ⟨-, hw, hws⟩ := h
    exact List.forall_mem_append.mpr ⟨ascii_of_lowered hw, ascii_joinedPascal fun v hv => (hws v hv).2⟩

theorem underscore_not_mem (h : ∀ c ∈ w, isLowered c) : '_' ∉ w := fun hu =>
  (lowered_casing (h '_' hu)).2.2.2.2.2.1 rfl

theorem snake_inj (hws : IsLowered ws) (hvs : IsLowered vs)
    (h : ['_'].intercalate ws = ['_'].intercalate vs) : ws = vs := by
  have split {us : List (List Char)} (hus : IsLowered us) : (['_'].intercalate us).splitOn '_' = us :=
    List.splitOn_intercalate '_' (fun v hv => underscore_not_mem (hus.letters.2 v hv).2) hus.letters.1
  rw [← split hws, h, split hvs]

theorem splitOnP_intercalate {p : Char → Bool} (hc : p c) (h : ∀ w ∈ ws, ∀ a ∈ w, p a = false)
    (hne : ws ≠ []) : ([c].intercalate ws).splitOnP p = ws := by
  induction ws with
  | nil => exact (hne rfl).elim
  | cons w ws ih =>
    obtain ⟨hw, hws⟩ := List.forall_mem_cons.mp h
    cases ws with
    | nil => simpa using List.splitOnP_eq_singleton hw
    | cons v vs =>
      rw [List.intercalate_cons_cons, List.append_assoc, List.singleton_append,
        List.splitOnP_append_cons_of_forall_mem hw c hc, ih hws (List.cons_ne_nil v vs)]

/-- In snake case a name is split into the same words again. -/
theorem ofText_snake (hws : IsLowered ws) : ofText (['_'].intercalate ws) = ws := by
  obtain ⟨hne, hwords⟩ := hws.letters
  have hsplit : (['_'].intercalate ws).splitOnP (fun c => !isAlnum c) = ws :=
    splitOnP_intercalate (by decide +kernel) (fun w hw c hc => by
      simp [(lowered_casing ((hwords w hw).2 c hc)).2.2.2.2.1]) hne
  have hone : ∀ w ∈ ws, splitFrom .start [] w = [w] := fun w hw =>
    splitFrom_word (hwords w hw).1 (by simp) fun c hc =>
      (lowered_casing ((hwords w hw).2 c (List.mem_of_mem_tail hc))).2.2.2.1
  rw [ofText, hsplit, List.flatMap_def, List.map_congr_left hone, ← List.flatMap_def,
    List.flatMap_singleton']

theorem map_toLower (hw : ∀ c ∈ w, isLowered c) : w.map Char.toLower = w :=
  (List.map_congr_left fun c hc => (lowered_casing (hw c hc)).1).trans (List.map_id' w)

theorem lowered_of_isLowered (hw : ∀ c ∈ w, isLowered c) : lowered w = w := by
  rw [lowered_eq_map (ascii_of_lowered hw), map_toLower hw]

theorem snake_snake (hws : IsLowered ws) : snake (['_'].intercalate ws) = ['_'].intercalate ws := by
  have hlow : ∀ w ∈ ws, lowered w = w := fun w hw => lowered_of_isLowered (hws.letters.2 w hw).2
  rw [snake, ofText_snake hws, List.map_congr_left hlow, List.map_id']

end Words

theorem Identifier.ascii_sanitizeFrom (capital : Bool) (s : List Char) :
    ∀ c ∈ sanitizeFrom capital s, isAsciiAlnum c := by
  induction s generalizing capital with
  | nil => simp [sanitizeFrom]
  | cons c s ih =>
    rw [sanitizeFrom]
    split
    · rename_i hc
      refine List.forall_mem_cons.mpr ⟨?_, ih false⟩
      cases capital
      · exact hc
      · exact (ascii_casing hc).2.2.2.2.2
    · exact ih true

namespace Name
variable {a b : String}

/-- What is left of a name, to be cased. -/
def letters (s : String) : List Char :=
  if (Identifier.sanitizeFrom false s.toList).isEmpty then "unnamed".toList
  else Identifier.sanitizeFrom false s.toList

theorem letters_ne_nil (s : String) : letters s ≠ [] := by
  rw [letters]
  split
  · decide
  · rename_i h
    simpa using h

theorem ascii_letters (s : String) : ∀ c ∈ letters s, isAsciiAlnum c := by
  rw [letters]
  split
  · exact List.all_eq_true.mp (by decide)
  · exact Identifier.ascii_sanitizeFrom false s.toList

/-- The words of a name, in lower case. -/
def words (s : String) : List (List Char) := (Words.ofText (letters s)).map Words.lowered

theorem isLowered_words (s : String) : Words.IsLowered (words s) :=
  Words.isLowered_words (letters_ne_nil s) (ascii_letters s)

theorem camel_eq (s : String) : (ofText s).camel = String.ofList (Words.joinedCamel (words s)) :=
  congrArg String.ofList (Words.camel_eq (letters_ne_nil s) (ascii_letters s))

theorem pascal_eq (s : String) : (ofText s).pascal = String.ofList (Words.joinedPascal (words s)) :=
  congrArg String.ofList (Words.pascal_eq (letters_ne_nil s) (ascii_letters s))

theorem snake_eq (s : String) : (ofText s).snake = String.ofList (['_'].intercalate (words s)) := rfl

theorem camel_eq_iff : (ofText a).camel = (ofText b).camel ↔ words a = words b := by
  rw [camel_eq, camel_eq, String.ofList_inj]
  exact ⟨Words.joinedCamel_inj (isLowered_words a) (isLowered_words b), fun h => by rw [h]⟩

theorem pascal_eq_iff : (ofText a).pascal = (ofText b).pascal ↔ words a = words b := by
  rw [pascal_eq, pascal_eq, String.ofList_inj]
  exact ⟨Words.joinedPascal_inj (isLowered_words a) (isLowered_words b), fun h => by rw [h]⟩

theorem snake_eq_iff : (ofText a).snake = (ofText b).snake ↔ words a = words b := by
  rw [snake_eq, snake_eq, String.ofList_inj]
  exact ⟨Words.snake_inj (isLowered_words a) (isLowered_words b), fun h => by rw [h]⟩

end Name
end ClientGen
