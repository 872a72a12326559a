import Mathlib.Data.List.Chain
import ClientGen.Proofs.Casing

/-! The four casings tell the same names apart. A name that is written in snake case has the words of the name
that it was written from: every word but the last lets a splitter see that a word ends there. -/
namespace ClientGen
open Letter
variable {c d : Char} {r r' : Words.Run} {word s t rest w v : List Char} {ws ps : List (List Char)}

/-- Letters have one case, and either case is made from the other. -/
theorem ascii_case (h : isAsciiAlnum c) :
    (isUpper c → isLower c = false ∧ c.toUpper = c ∧ isLower c.toLower) ∧
      (isLower c → isUpper c = false ∧ c.toLower = c) :=
  ascii_forall (P := fun c => isAsciiAlnum c →
    (isUpper c → isLower c = false ∧ c.toUpper = c ∧ isLower c.toLower) ∧
      (isLower c → isUpper c = false ∧ c.toLower = c)) (by decide +kernel)
    (lt_of_isAsciiAlnum h) h

namespace Words

/-! ### Where words end -/

/-- What shows that a word ends before another: it has a small letter, or it has a capital and the other goes
on with a small letter after its first. -/
def Parts (w v : List Char) : Prop :=
  (∃ c ∈ w, isLower c) ∨ (∃ c ∈ w, isUpper c) ∧ ∃ c d l, v = c :: d :: l ∧ isLower d

/-- The word that is being read is the beginning of the first word. -/
theorem splitFrom_first (hs : s ≠ []) :
    ∃ first others, splitFrom r word s = first :: others ∧ word.reverse <+: first := by
  fun_induction splitFrom r word s with
  | case1 => exact (hs rfl).elim
  | case2 r word c => exact ⟨_, [], rfl, by simp⟩
  | case3 r word c d rest h => exact ⟨_, _, rfl, by simp⟩
  | case4 r word c d rest _ h => exact ⟨_, _, rfl, List.prefix_refl _⟩
  | case5 r word c d rest _ _ ih =>
    obtain ⟨first, others, hsplit, hfirst⟩ := ih (by simp)
    have hword : word.reverse <+: (c :: word).reverse := by simp
    exact ⟨first, others, hsplit, hword.trans hfirst⟩

/-- No word that goes on ends after its first letter. -/
theorem splitFrom_second (c d : Char) (rest : List Char) :
    ∃ l others, splitFrom .start [c] (d :: rest) = (c :: d :: l) :: others := by
  obtain ⟨first, others, hsplit, l, rfl⟩ :
      ∃ first others, splitFrom .start [c] (d :: rest) = first :: others ∧ [c, d] <+: first := by
    cases rest with
    | nil => exact ⟨_, [], rfl, List.prefix_refl _⟩
    | cons e rest =>
      rw [splitFrom]
      split
      · exact ⟨_, _, rfl, List.prefix_refl _⟩
      · rw [if_neg (by simp)]
        exact splitFrom_first (List.cons_ne_nil e rest)
  exact ⟨l, others, hsplit⟩

/-! What the splitter remembers is the case of a letter of the word that it is reading. -/

theorem next_eq_lower (h : r.next c = .lower) (hr : r = .lower → ∃ a ∈ word, isLower a) :
    ∃ a ∈ c :: word, isLower a := by
  rw [Run.next] at h
  split at h
  · rename_i hc
    exact ⟨c, List.mem_cons_self, hc⟩
  · split at h
    · cases h
    · obtain ⟨a, ha, hlower⟩ := hr h
      exact ⟨a, List.mem_cons_of_mem _ ha, hlower⟩

theorem next_eq_upper (h : r.next c = .upper) (hr : r = .upper → ∃ a ∈ word, isUpper a) :
    ∃ a ∈ c :: word, isUpper a := by
  rw [Run.next] at h
  split at h
  · cases h
  · split at h
    · rename_i hc
      exact ⟨c, List.mem_cons_self, hc⟩
    · obtain ⟨a, ha, hupper⟩ := hr h
      exact ⟨a, List.mem_cons_of_mem _ ha, hupper⟩

/-- Wherever a word is ended, the letters show it. -/
theorem isChain_splitFrom (hs : s ≠ []) (hlower : r = .lower → ∃ c ∈ word, isLower c)
    (hupper : r = .upper → ∃ c ∈ word, isUpper c) : (splitFrom r word s).IsChain Parts := by
  fun_induction splitFrom r word s with
  | case1 => exact (hs rfl).elim
  | case2 r word c => exact .singleton _
  | case3 r word c d rest h ih =>
    refine List.isChain_cons.mpr ⟨fun v _ => .inl ?_, ih (by simp) (by simp) (by simp)⟩
    obtain ⟨a, ha, hcase⟩ := next_eq_lower h.1 hlower
    exact ⟨a, List.mem_reverse.mpr ha, hcase⟩
  | case4 r word c d rest _ h ih =>
    refine List.isChain_cons.mpr ⟨fun v hv => .inr ⟨?_, ?_⟩, ih (by simp) (by simp) (by simp)⟩
    · obtain ⟨a, ha, hcase⟩ := hupper h.1
      exact ⟨a, List.mem_reverse.mpr ha, hcase⟩
    · obtain ⟨l, others, hsplit⟩ := splitFrom_second c d rest
      rw [hsplit] at hv
      obtain rfl : c :: d :: l = v := by simpa using hv
      exact ⟨c, d, l, rfl, h.2.2⟩
  | case5 r word c d rest _ _ ih =>
    exact ih (by simp) (fun h => next_eq_lower h hlower) (fun h => next_eq_upper h hupper)

/-! ### Splitting again -/

/-- A word with no capital but its first letter is read as a whole, up to the capital that follows it. -/
theorem splitFrom_append (ht : t ≠ []) (hhead : ∀ c ∈ t.head?, isUpper c → r ≠ .upper)
    (htail : ∀ c ∈ t.tail, isUpper c = false) (hd : isUpper d) : splitFrom r word (t ++ d :: rest) =
      if t.foldl Run.next r = .lower then (word.reverse ++ t) :: splitFrom .start [] (d :: rest)
      else splitFrom (t.foldl Run.next r) (t.reverse ++ word) (d :: rest) := by
  induction t generalizing r word with
  | nil => exact (ht rfl).elim
  | cons c t ih =>
    have hcapital (a : Char) : ¬(r = .upper ∧ isUpper c ∧ isLower a) := fun h => hhead c rfl h.2.1 h.1
    cases t with
    | nil =>
      simp only [List.singleton_append, splitFrom, hd, and_true, if_neg (hcapital d), List.foldl_cons,
        List.foldl_nil, List.reverse_cons, List.reverse_nil, List.nil_append]
    | cons e t =>
      have he : isUpper e = false := htail e List.mem_cons_self
      have hlater := @ih (r.next c) (c :: word) (List.cons_ne_nil e t)
        (fun a ha hcase => by simp_all) (fun a ha => htail a (List.mem_cons_of_mem _ ha))
      simp only [List.cons_append] at hlater ⊢
      rw [splitFrom, if_neg (by simp [he]), if_neg (hcapital e), hlater]
      simp

/-- Without capitals, only small letters change what is remembered. -/
theorem foldl_next (ht : ∀ c ∈ t, isUpper c = false) :
    t.foldl Run.next r = if t.any isLower then .lower else r := by
  induction t generalizing r with
  | nil => rfl
  | cons c t ih =>
    obtain ⟨hc, ht⟩ := List.forall_mem_cons.mp ht
    rw [List.foldl_cons, ih ht, Run.next, hc, List.any_cons]
    cases isLower c <;> simp

/-- What is remembered at the end of a word. -/
theorem foldl_next_word (hw : w ≠ []) (htail : ∀ c ∈ w.tail, isUpper c = false) :
    ((∃ c ∈ w, isLower c) → w.foldl Run.next .start = .lower) ∧
      ((∃ c ∈ w, isUpper c) → (¬∃ c ∈ w, isLower c) → w.foldl Run.next .start = .upper) := by
  cases w with
  | nil => exact (hw rfl).elim
  | cons c t =>
    have ht : ∀ a ∈ t, isUpper a = false := htail
    rw [List.foldl_cons, foldl_next ht, Run.next]
    constructor
    · rintro ⟨a, ha, hlower⟩
      rcases List.mem_cons.mp ha with rfl | ha
      · simp [hlower]
      · rw [if_pos (List.any_eq_true.mpr ⟨a, ha, hlower⟩)]
    · rintro ⟨a, ha, hupper⟩ hnone
      have hsmall : ∀ b ∈ c :: t, isLower b = false := by simpa using hnone
      obtain ⟨hc, hmore⟩ := List.forall_mem_cons.mp hsmall
      have hany : t.any isLower = false := List.any_eq_false.mpr fun b hb => by simp [hmore b hb]
      rcases List.mem_cons.mp ha with rfl | ha
      · simp [hc, hupper, hany]
      · simp [ht a ha] at hupper

/-- After a small letter it does not matter what was remembered. -/
theorem splitFrom_congr (hd : isLower d) (hsmall : isUpper d = false) :
    splitFrom r word (d :: rest) = splitFrom r' word (d :: rest) := by
  cases rest with
  | nil => rfl
  | cons e rest => simp only [splitFrom, Run.next, hd, if_true, hsmall, Bool.false_eq_true, false_and, and_false]

/-- Words that show where they end, each of them with no capital but its first letter, are found again. -/
theorem splitFrom_flatten (hw : w ≠ []) (hnext : ∀ v ∈ ws, ∃ c ∈ v.head?, isUpper c)
    (hascii : ∀ v ∈ w :: ws, ∀ c ∈ v, isAsciiAlnum c)
    (htail : ∀ v ∈ w :: ws, ∀ c ∈ v.tail, isUpper c = false) (hparts : (w :: ws).IsChain Parts) :
    splitFrom .start [] (w :: ws).flatten = w :: ws := by
  induction ws generalizing w with
  | nil =>
    rw [List.flatten_singleton, splitFrom_word hw (by simp) (htail w List.mem_cons_self)]
    rfl
  | cons v ws ih =>
    obtain ⟨d, hd, hcapital⟩ := hnext v List.mem_cons_self
    obtain ⟨v, rfl⟩ : ∃ l, v = d :: l := List.head?_eq_some_iff.mp hd
    obtain ⟨-, hnext⟩ := List.forall_mem_cons.mp hnext
    obtain ⟨-, hascii⟩ := List.forall_mem_cons.mp hascii
    obtain ⟨hwtail, htail⟩ := List.forall_mem_cons.mp htail
    obtain ⟨hwv, hparts⟩ := List.isChain_cons_cons.mp hparts
    have hrest := ih (List.cons_ne_nil d v) hnext hascii htail hparts
    obtain ⟨hlower, hupper⟩ := foldl_next_word hw hwtail
    have hread : splitFrom .start [] (w ++ d :: (v ++ ws.flatten)) = _ :=
      splitFrom_append hw (by simp) hwtail hcapital
    rw [List.flatten_cons, List.flatten_cons, List.cons_append, hread]
    rw [List.flatten_cons, List.cons_append] at hrest
    by_cases hsmall : ∃ c ∈ w, isLower c
    · rw [if_pos (hlower hsmall), hrest]
      rfl
    · -- The word is a capital and digits, so the next one is told by its small letter.
      obtain ⟨hbig, _, e, l, he, hesmall⟩ := hwv.resolve_left hsmall
      cases he
      have hmode := hupper hbig hsmall
      have hdcase := ((ascii_case (hascii _ List.mem_cons_self d List.mem_cons_self)).1 hcapital).1
      have hecase := ((ascii_case (hascii _ List.mem_cons_self e (by simp))).2 hesmall).1
      have hnextd (r : Run) : r.next d = .upper := by simp [Run.next, hdcase, hcapital]
      have hafter : splitFrom .start [] (d :: e :: (l ++ ws.flatten)) =
          splitFrom .upper [d] (e :: (l ++ ws.flatten)) := by
        rw [splitFrom, if_neg (by simp [hnextd]), if_neg (by simp), hnextd]
      rw [List.cons_append, hafter] at hrest
      rw [hmode, if_neg (by simp), List.cons_append, splitFrom, if_neg (by simp [hnextd]),
        if_pos ⟨rfl, hcapital, hesmall⟩, splitFrom_congr hesmall hecase, hrest]
      simp

/-! ### The words of a name that is written again -/

/-- The words of a name as camel case writes them. -/
def camelWords : List (List Char) → List (List Char)
  | [] => []
  | w :: ws => w :: ws.map raised

theorem flatten_camelWords (ws : List (List Char)) : (camelWords ws).flatten = joinedCamel ws := by
  cases ws with
  | nil => rfl
  | cons w ws => rw [camelWords, List.flatten_cons, joinedCamel, joinedPascal, List.flatMap_def]

theorem raised_lowered (hascii : ∀ c ∈ d :: w, isAsciiAlnum c) (hd : isUpper d) :
    raised (lowered (d :: w)) = d :: w.map Char.toLower := by
  have hdascii := hascii d List.mem_cons_self
  rw [lowered_eq_map hascii, List.map_cons, raised, (ascii_casing hdascii).2.1,
    ((ascii_case hdascii).1 hd).2.1]

/-- The first word, in lower case, shows its end if it showed it before. -/
theorem Parts.lowered (hw : ∀ c ∈ w, isAsciiAlnum c) (h : Parts w v) : Parts (lowered w) t := by
  rw [lowered_eq_map hw]
  rcases h with ⟨c, hc, hsmall⟩ | ⟨⟨c, hc, hcapital⟩, -⟩
  · exact .inl ⟨c, List.mem_map.mpr ⟨c, hc, ((ascii_case (hw c hc)).2 hsmall).2⟩, hsmall⟩
  · exact .inl ⟨c.toLower, List.mem_map_of_mem hc, ((ascii_case (hw c hc)).1 hcapital).2.2⟩

/-- So does every other word, with its capital. -/
theorem Parts.raised (hw : ∀ c ∈ w, isAsciiAlnum c) (hv : ∀ c ∈ v, isAsciiAlnum c)
    (hwhead : ∃ c ∈ w.head?, isUpper c) (hvhead : ∃ c ∈ v.head?, isUpper c) (h : Parts w v) :
    Parts (raised (Words.lowered w)) (raised (Words.lowered v)) := by
  obtain ⟨d, hd, hdcapital⟩ := hwhead
  obtain ⟨w, rfl⟩ : ∃ l, w = d :: l := List.head?_eq_some_iff.mp hd
  rw [raised_lowered hw hdcapital]
  rcases h with ⟨c, hc, hsmall⟩ | ⟨-, e, f, l, rfl, hsmall⟩
  · -- The small letter is not the first, which is a capital.
    rcases List.mem_cons.mp hc with rfl | hc
    · rw [((ascii_case (hw c List.mem_cons_self)).1 hdcapital).1] at hsmall
      cases hsmall
    · have hkept := ((ascii_case (hw c (List.mem_cons_of_mem _ hc))).2 hsmall).2
      exact .inl ⟨c, List.mem_cons_of_mem _ (List.mem_map.mpr ⟨c, hc, hkept⟩), hsmall⟩
  · obtain ⟨e', he, hecapital⟩ := hvhead
    obtain rfl : e = e' := by simpa using he
    have hkept := ((ascii_case (hv f (by simp))).2 hsmall).2
    rw [raised_lowered hv hecapital, List.map_cons, hkept]
    exact .inr ⟨⟨d, List.mem_cons_self, hdcapital⟩, e, f, _, rfl, hsmall⟩

theorem isChain_camelWords (hascii : ∀ v ∈ w :: ws, ∀ c ∈ v, isAsciiAlnum c)
    (hnext : ∀ v ∈ ws, ∃ c ∈ v.head?, isUpper c) (h : (w :: ws).IsChain Parts) :
    (camelWords ((w :: ws).map lowered)).IsChain Parts := by
  obtain ⟨hw, hws⟩ := List.forall_mem_cons.mp hascii
  rw [List.map_cons, camelWords, List.map_map]
  obtain ⟨hfirst, hrest⟩ := List.isChain_cons.mp h
  refine List.isChain_cons.mpr ⟨fun v hv => ?_, ?_⟩
  · cases ws with
    | nil => cases hv
    | cons u us => exact Parts.lowered hw (hfirst u rfl)
  · rw [List.isChain_map]
    refine List.IsChain.imp_of_mem_imp (fun u v hu hv huv => ?_) hrest
    exact huv.raised (hws u hu) (hws v hv) (hnext u hu) (hnext v hv)

/-- In camel case a name is split into the same words again. -/
theorem ofText_joinedCamel (hs : s ≠ []) (h : ∀ c ∈ s, isAsciiAlnum c) :
    ofText (joinedCamel ((ofText s).map lowered)) = camelWords ((ofText s).map lowered) := by
  have hlowered := isLowered_words hs h
  have hascii := ascii_of_mem_ofText hs h
  have hchain : (ofText s).IsChain Parts := ofText_ascii h ▸ isChain_splitFrom hs (by simp) (by simp)
  rw [ofText_ascii (ascii_joinedCamel hlowered), ← flatten_camelWords]
  obtain ⟨-, w, ws, hsplit, -, hnext⟩ := splitFrom_spec .start [] s hs (by simp)
  rw [← ofText_ascii h] at hsplit
  rw [hsplit] at hlowered hascii hchain ⊢
  have hparts := isChain_camelWords hascii hnext hchain
  obtain ⟨hw, hwlowered, hwslowered⟩ := hlowered
  have hsmall {v : List Char} (hv : ∀ c ∈ v, isLowered c) : ∀ c ∈ v, isUpper c = false :=
    fun c hc => (lowered_casing (hv c hc)).2.2.2.1
  rw [List.map_cons, camelWords, List.map_map] at hparts ⊢
  refine splitFrom_flatten hw ?_ ?_ ?_ hparts
  · intro v hv
    obtain ⟨u, hu, rfl⟩ := List.mem_map.mp hv
    obtain ⟨d, hd, hcapital⟩ := hnext u hu
    obtain ⟨l, rfl⟩ : ∃ l, u = d :: l := List.head?_eq_some_iff.mp hd
    rw [Function.comp_apply, raised_lowered (hascii _ (List.mem_cons_of_mem _ hu)) hcapital]
    exact ⟨d, rfl, hcapital⟩
  · refine List.forall_mem_cons.mpr ⟨ascii_of_lowered hwlowered, fun v hv => ?_⟩
    obtain ⟨u, hu, rfl⟩ := List.mem_map.mp hv
    exact ascii_raised (hwslowered _ (List.mem_map_of_mem hu)).2
  · refine List.forall_mem_cons.mpr ⟨fun c hc => hsmall hwlowered c (List.mem_of_mem_tail hc), fun v hv => ?_⟩
    obtain ⟨u, hu, rfl⟩ := List.mem_map.mp hv
    have hul := (hwslowered _ (List.mem_map_of_mem hu)).2
    intro c hc
    refine hsmall hul c ?_
    rw [Function.comp_apply] at hc
    cases hlu : lowered u with
    | nil => simp [hlu, Words.raised] at hc
    | cons a l => exact List.mem_cons_of_mem _ (by simpa [hlu, Words.raised] using hc)

theorem lowered_raised (hw : ∀ c ∈ w, isLowered c) : lowered (raised w) = w := by
  rw [lowered_eq_map (ascii_raised hw)]
  cases w with
  | nil => rfl
  | cons c l =>
    obtain ⟨hc, hl⟩ := List.forall_mem_cons.mp hw
    rw [raised, List.map_cons, (lowered_casing hc).2.1, map_toLower hl]

theorem map_lowered_camelWords (hws : IsLowered ws) : (camelWords ws).map lowered = ws := by
  cases ws with
  | nil => rfl
  | cons w ws =>
    obtain ⟨-, hw, hws⟩ := hws
    have hrest : ws.map (lowered ∘ raised) = ws :=
      (List.map_congr_left fun v hv => lowered_raised (hws v hv).2).trans (List.map_id' ws)
    rw [camelWords, List.map_cons, lowered_of_isLowered hw, List.map_map, hrest]

end Words

/-- A word is kept, with a capital if it follows something that is left out. -/
theorem Identifier.sanitizeFrom_append {capital : Bool} (hw : w ≠ []) (hascii : ∀ c ∈ w, isAsciiAlnum c)
    (s : List Char) : sanitizeFrom capital (w ++ s) =
      (if capital then Words.raised w else w) ++ sanitizeFrom false s := by
  have kept {l : List Char} (hl : ∀ c ∈ l, isAsciiAlnum c) :
      sanitizeFrom false (l ++ s) = l ++ sanitizeFrom false s := by
    induction l with
    | nil => rfl
    | cons c l ih =>
      obtain ⟨hc, hl⟩ := List.forall_mem_cons.mp hl
      rw [List.cons_append, sanitizeFrom, if_pos hc, ih hl]
      rfl
  cases w with
  | nil => exact (hw rfl).elim
  | cons c l =>
    obtain ⟨hc, hl⟩ := List.forall_mem_cons.mp hascii
    rw [List.cons_append, sanitizeFrom, if_pos hc, kept hl]
    cases capital <;> rfl

/-- What is left of a name in snake case is the name in camel case. -/
theorem Identifier.sanitizeFrom_snake (hws : Words.IsLowered ws) :
    sanitizeFrom false (['_'].intercalate ws) = Words.joinedCamel ws := by
  have next {vs : List (List Char)} (hvs : ∀ v ∈ vs, Words.IsNext v) :
      sanitizeFrom false (vs.flatMap (['_'] ++ ·)) = Words.joinedPascal vs := by
    induction vs with
    | nil => rfl
    | cons v vs ih =>
      obtain ⟨hv, hvs⟩ := List.forall_mem_cons.mp hvs
      rw [List.flatMap_cons, List.append_assoc, List.singleton_append, sanitizeFrom, if_neg (by decide),
        sanitizeFrom_append hv.ne_nil (Words.ascii_of_lowered hv.2), ih hvs]
      rfl
  cases ws with
  | nil => exact hws.elim
  | cons w ws =>
    obtain ⟨hw, hwl, hws⟩ := hws
    have hsplit : ['_'].intercalate (w :: ws) = w ++ ws.flatMap (['_'] ++ ·) := by
      cases ws with
      | nil => simp
      | cons v vs =>
        rw [List.intercalate_cons_cons, List.append_assoc, append_intercalate (List.cons_ne_nil v vs)]
    rw [hsplit, sanitizeFrom_append hw (Words.ascii_of_lowered hwl), next hws]
    rfl

namespace Words

/-! ### Capitals throughout -/

/-- The words of a name, all in capitals. -/
def joinedScreaming (ws : List (List Char)) : List Char := ['_'].intercalate (ws.map (·.map Char.toUpper))

theorem screaming_eq (hs : s ≠ []) (h : ∀ c ∈ s, isAsciiAlnum c) :
    screaming s = joinedScreaming ((ofText s).map lowered) := by
  have hascii := ascii_of_mem_ofText hs h
  rw [screaming, joinedScreaming, List.map_map]
  refine congrArg _ (List.map_congr_left fun w hw => ?_)
  rw [Function.comp_apply, lowered_eq_map (hascii w hw), List.map_map]
  exact List.map_congr_left fun c hc => (ascii_casing (hascii w hw c hc)).2.1.symm

theorem toUpper_ne_underscore (hc : isLowered c) : c.toUpper ≠ '_' := by
  intro h
  have hascii := (ascii_casing (isAsciiAlnum_of_isLowered hc)).2.2.2.2.2
  rw [h] at hascii
  exact absurd hascii (by decide)

theorem map_toUpper_toLower (hw : ∀ c ∈ w, isLowered c) : (w.map Char.toUpper).map Char.toLower = w := by
  rw [List.map_map]
  exact (List.map_congr_left fun c hc => (lowered_casing (hw c hc)).2.1).trans (List.map_id' w)

theorem joinedScreaming_inj (hws : IsLowered ws) (hvs : IsLowered ps)
    (h : joinedScreaming ws = joinedScreaming ps) : ws = ps := by
  have split {us : List (List Char)} (hus : IsLowered us) :
      (joinedScreaming us).splitOn '_' = us.map (·.map Char.toUpper) := by
    obtain ⟨hne, hletters⟩ := hus.letters
    refine List.splitOn_intercalate '_' (fun v hv hmem => ?_) (by simpa using hne)
    obtain ⟨u, hu, rfl⟩ := List.mem_map.mp hv
    obtain ⟨c, hc, he⟩ := List.mem_map.mp hmem
    exact toUpper_ne_underscore ((hletters u hu).2 c hc) he
  have back {us : List (List Char)} (hus : IsLowered us) :
      (us.map (·.map Char.toUpper)).map (·.map Char.toLower) = us := by
    rw [List.map_map]
    refine (List.map_congr_left fun u hu => ?_).trans (List.map_id' us)
    exact map_toUpper_toLower (hus.letters.2 u hu).2
  rw [← back hws, ← split hws, h, split hvs, back hvs]

theorem joinedCamel_ne_nil (hws : IsLowered ws) : joinedCamel ws ≠ [] := by
  cases ws with
  | nil => exact hws.elim
  | cons w ws => exact fun h => hws.1 (List.append_eq_nil_iff.mp h).1

end Words

namespace Name
variable {a b : String}

theorem screaming_eq (s : String) : (ofText s).screaming = String.ofList (Words.joinedScreaming (words s)) :=
  congrArg String.ofList (Words.screaming_eq (letters_ne_nil s) (ascii_letters s))

theorem screaming_eq_iff : (ofText a).screaming = (ofText b).screaming ↔ words a = words b := by
  rw [screaming_eq, screaming_eq, String.ofList_inj]
  exact ⟨Words.joinedScreaming_inj (isLowered_words a) (isLowered_words b), fun h => by rw [h]⟩

/-- What is made from a name in snake case has the words of the name. -/
theorem words_snake (s : String) : words (ofText s).snake = words s := by
  have hws := isLowered_words s
  have hkept : Identifier.sanitizeFrom false (ofText s).snake.toList = Words.joinedCamel (words s) := by
    rw [snake_eq, String.toList_ofList, Identifier.sanitizeFrom_snake hws]
  have hletters : letters (ofText s).snake = Words.joinedCamel (words s) := by
    rw [letters, hkept, if_neg (by simpa using Words.joinedCamel_ne_nil hws)]
  have hsplit : Words.ofText (Words.joinedCamel (words s)) = Words.camelWords (words s) :=
    Words.ofText_joinedCamel (letters_ne_nil s) (ascii_letters s)
  rw [words, hletters, hsplit, Words.map_lowered_camelWords hws]

/-- Two names are the same in one casing if and only if they are in any other, which is to say if they have
the same words. A name in snake case is the same when it is put in snake case again, also after it is made
an identifier again. -/
theorem casings_agree (a b : String) :
    ((ofText a).camel = (ofText b).camel ↔ words a = words b) ∧
    ((ofText a).camel = (ofText b).camel ↔ (ofText a).pascal = (ofText b).pascal) ∧
    ((ofText a).pascal = (ofText b).pascal ↔ (ofText a).snake = (ofText b).snake) ∧
    ((ofText a).snake = (ofText b).snake ↔ (ofText a).screaming = (ofText b).screaming) ∧
    String.ofList (Words.snake (ofText a).snake.toList) = (ofText a).snake ∧
    (ofText (ofText a).snake).snake = (ofText a).snake := by
  refine ⟨camel_eq_iff, camel_eq_iff.trans pascal_eq_iff.symm, pascal_eq_iff.trans snake_eq_iff.symm,
    snake_eq_iff.trans screaming_eq_iff.symm, ?_, snake_eq_iff.mpr (words_snake a)⟩
  rw [snake_eq, String.toList_ofList, Words.snake_snake (isLowered_words a)]

/-- Pascal case is not stable in this way: where a capital follows a capital, the words run together. -/
example : (ofText "aB").pascal = "AB" ∧ (ofText (ofText "aB").pascal).pascal = "Ab" := by decide

end Name
end ClientGen
