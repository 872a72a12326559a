import ClientGen.Text.Lines
import ClientGen.Proofs.Literal

/-! Generated code as a reader takes it apart, whoever has printed it: into words, literals and marks. What a text
names are its words, but for labels and for members behind a point. What an expression of types refers to that is
evaluated late are its literals, but for those that are values themselves. -/
namespace ClientGen.Code
open Letter (isAsciiAlnum)
open Python (IsEscaped)
variable {a s t : String} {c : Char} {l l' : List Char} {ts us : List Token} {P R : String → Prop}
  {whole whole' : Bool} {words : List String} {ls : Lines}

/-! ### Reading -/

inductive Token
  | word (text : String)
  /-- A literal in double quotes, with its escapes. -/
  | literal (text : String)
  | mark (c : Char)
deriving DecidableEq, Repr

/-- What a word is made of: letters, digits, underscores and dollars, and whatever is beyond ASCII. -/
def isInWord (c : Char) : Bool := isAsciiAlnum c || c = '_' || c = '$' || 0x80 ≤ c.toNat

theorem isInWord_iff : isInWord c ↔ isAsciiAlnum c ∨ c = '_' ∨ c = '$' ∨ 0x80 ≤ c.toNat := by
  simp [isInWord, or_assoc]

/-- Where a reader stands: behind a part of a word, or in a literal, or behind a backslash in it. -/
inductive Place
  | code (word : List Char)
  | literal (text : List Char)
  | escape (text : List Char)
deriving DecidableEq, Repr

/-- What is read where the text ends. -/
def Place.ended : Place → List Token
  | code [] => []
  | code word => [.word (String.ofList word)]
  | literal text | escape text => [.literal (String.ofList text)]

/-- Reads one character. Blanks part words and are left out. -/
def step : Place → Char → List Token × Place
  | .code word, c =>
    if isInWord c then ([], .code (word ++ [c]))
    else
      let ended := (Place.code word).ended
      if c = '"' then (ended, .literal [])
      else if c = ' ' then (ended, .code [])
      else (ended ++ [.mark c], .code [])
  | .literal text, c =>
    if c = '"' then ([.literal (String.ofList text)], .code [])
    else if c = '\\' then ([], .escape (text ++ [c]))
    else ([], .literal (text ++ [c]))
  | .escape text, c => ([], .literal (text ++ [c]))

def scan : Place → List Char → List Token × Place
  | p, [] => ([], p)
  | p, c :: l =>
    let (ts, next) := step p c
    let (us, last) := scan next l
    (ts ++ us, last)

def tokens (s : String) : List Token :=
  let (ts, last) := scan (.code []) s.toList
  ts ++ last.ended

/-- Whether what stands before is a label. -/
def isLabelled : List Token → Bool
  | .mark c :: _ => c = ':' || c = '?'
  | _ => false

/-- What is taken from tokens, and what makes a reader skip the next one. -/
structure Selection where
  take : Token → Option String
  skips : Bool → Token → Bool
  /-- A reader that skips one token does not skip less of the others. -/
  mono : ∀ t, skips false t → skips true t

def Selection.from (g : Selection) : Bool → List Token → List String
  | _, [] => []
  | skip, t :: ts => (if skip || isLabelled ts then [] else (g.take t).toList) ++ g.from (g.skips skip t) ts

/-- Words, but for members behind a point. -/
def named : Selection where
  take
    | .word a => some a
    | _ => none
  skips _ t := t = .mark '.'
  mono _ h := h

/-- Literals, but for those in the brackets of `Literal`. -/
def referred : Selection where
  take
    | .literal a => some a
    | _ => none
  skips
    | skip, .word a => skip || a = "Literal"
    | skip, .mark c => skip && c ≠ ']'
    | skip, .literal _ => skip
  mono
    | .word _, _ => rfl
    | .mark _, h => nomatch h
    | .literal _, h => nomatch h

section
variable {g : Selection} {skip : Bool}

@[simp]
theorem Selection.from_nil : g.from skip [] = [] := rfl

@[simp]
theorem named_word : named.from skip (.word a :: ts) =
    (if skip || isLabelled ts then [] else [a]) ++ named.from false ts := rfl

@[simp]
theorem named_literal : named.from skip (.literal a :: ts) = named.from false ts := by
  cases skip <;> simp [Selection.from, named]

@[simp]
theorem named_mark : named.from skip (.mark c :: ts) = named.from (c = '.') ts := by
  cases skip <;> simp [Selection.from, named]

@[simp]
theorem referred_word : referred.from skip (.word a :: ts) = referred.from (skip || a = "Literal") ts := by
  cases skip <;> simp [Selection.from, referred]

@[simp]
theorem referred_literal : referred.from skip (.literal a :: ts) =
    (if skip || isLabelled ts then [] else [a]) ++ referred.from skip ts := rfl

@[simp]
theorem referred_mark : referred.from skip (.mark c :: ts) = referred.from (skip && c ≠ ']') ts := by
  cases skip <;> simp [Selection.from, referred]

end

/-- What a text names. -/
def names (s : String) : List String := named.from false (tokens s)

/-- What a text refers to by literals. -/
def references (s : String) : List String := referred.from false (tokens s)

example : names "z.record(z.string(), z.lazy(() => PetSchema))" = ["z", "z", "z", "PetSchema"] := by decide +kernel

example : names "\"tag\"?: Record<string, Pet[]>;" = ["Record", "string", "Pet"] := by decide +kernel

example : references "\"tag\": list[\"Pet\"] | Literal[\"a\", \"b\"]," = ["Pet"] := by decide +kernel

/-! ### Texts one after the other -/

namespace Selection
variable {g : Selection} {skip skip' : Bool}

theorem from_subset (h : skip' → skip) : g.from skip ts ⊆ g.from skip' ts := by
  induction ts generalizing skip skip' with
  | nil => exact List.Subset.refl _
  | cons t ts ih =>
    have hnext : g.skips skip' t → g.skips skip t := by
      cases skip' with
      | true => rw [h rfl]; exact id
      | false =>
        cases skip with
        | true => exact g.mono t
        | false => exact id
    intro x hx
    rw [Selection.from, List.mem_append] at hx ⊢
    refine hx.imp (fun hx => ?_) (ih hnext ·)
    cases skip' with
    | true => rwa [h rfl] at hx
    | false => cases skip <;> simp_all

theorem isLabelled_append (h : isLabelled ts) : isLabelled (ts ++ us) := by
  cases ts with
  | nil => cases h
  | cons t => cases t <;> exact h

/-- Nothing is selected from two texts that is not selected from one of them. -/
theorem from_append_subset : g.from skip (ts ++ us) ⊆ g.from skip ts ++ g.from false us := by
  induction ts generalizing skip with
  | nil => exact from_subset nofun
  | cons t ts ih =>
    intro x hx
    rw [List.cons_append, Selection.from, List.mem_append] at hx
    rw [Selection.from, List.append_assoc, List.mem_append]
    refine hx.imp (fun hx => ?_) (ih ·)
    split at hx
    · cases hx
    · rename_i hskip
      rw [if_neg fun h => hskip ?_]
      · exact hx
      · simp only [Bool.or_eq_true] at h ⊢
        exact h.imp_right isLabelled_append

end Selection

/-- What the tokens name is allowed, and what they refer to. -/
def Tells (P R : String → Prop) (ts : List Token) : Prop :=
  (∀ a ∈ named.from false ts, P a) ∧ ∀ a ∈ referred.from false ts, R a

theorem Tells.append (ht : Tells P R ts) (hu : Tells P R us) : Tells P R (ts ++ us) :=
  ⟨fun a ha => (List.mem_append.mp (Selection.from_append_subset ha)).elim (ht.1 a) (hu.1 a),
    fun a ha => (List.mem_append.mp (Selection.from_append_subset ha)).elim (ht.2 a) (hu.2 a)⟩

theorem scan_append (p : Place) (l l' : List Char) : scan p (l ++ l') =
    ((scan p l).1 ++ (scan (scan p l).2 l').1, (scan (scan p l).2 l').2) := by
  induction l generalizing p with
  | nil => rfl
  | cons c l ih =>
    simp only [List.cons_append, scan, ih, List.append_assoc]

theorem scan_word (word : List Char) (h : ∀ c ∈ l, isInWord c) :
    scan (.code word) l = ([], .code (word ++ l)) := by
  induction l generalizing word with
  | nil => rw [List.append_nil]; rfl
  | cons c l ih =>
    obtain ⟨hc, hl⟩ := List.forall_mem_cons.mp h
    have hstep : step (.code word) c = ([], .code (word ++ [c])) := if_pos hc
    simp only [scan, hstep, ih _ hl, List.append_assoc, List.singleton_append, List.nil_append]

/-- A word ends before any character that is in no word. -/
theorem scan_mark {word : List Char} (hc : isInWord c = false) : scan (.code word) (c :: l) =
    ((Place.code word).ended ++ (scan (.code []) (c :: l)).1, (scan (.code []) (c :: l)).2) := by
  have hstep : step (.code word) c =
      ((Place.code word).ended ++ (step (.code []) c).1, (step (.code []) c).2) := by
    simp only [step, hc]
    split
    · simp_all
    · split
      · simp [Place.ended]
      · split <;> simp [Place.ended]
  simp only [scan, hstep, List.append_assoc]

/-- Whether a text starts with a character that is in no word. -/
def startsWithMark (s : String) : Bool := s.toList.head?.any (!isInWord ·)

theorem startsWithMark_append (h : startsWithMark s) : startsWithMark (s ++ t) := by
  rw [startsWithMark] at h ⊢
  rw [String.toList_append]
  cases hs : s.toList with
  | nil => simp [hs] at h
  | cons c l => simpa [hs] using h

theorem scan_of_startsWithMark {word : List Char} (h : startsWithMark s) : scan (.code word) s.toList =
    ((Place.code word).ended ++ (scan (.code []) s.toList).1, (scan (.code []) s.toList).2) := by
  rw [startsWithMark] at h
  cases hs : s.toList with
  | nil => simp [hs] at h
  | cons c l => exact scan_mark (by simpa [hs] using h)

/-- Where every quote is escaped, a literal goes on. -/
theorem scan_escaped {text l : List Char} (h : IsEscaped l) :
    scan (.literal text) l = ([], .literal (text ++ l)) := by
  match l with
  | [] => rw [List.append_nil]; rfl
  | c :: l =>
    rcases h.cons_cases with ⟨rfl, d, t, rfl, ht⟩ | ⟨hslash, hquote, hl⟩
    · have hrest : scan (.literal (text ++ ['\\', d])) t = _ := scan_escaped ht
      simp [scan, step, hrest]
    · have hrest : scan (.literal (text ++ [c])) l = _ := scan_escaped hl
      simp [scan, step, hslash, hquote, hrest]
termination_by l.length

theorem scan_literal (h : IsEscaped l) :
    scan (.code []) ('"' :: (l ++ ['"'])) = ([.literal (String.ofList l)], .code []) := by
  have hopen : scan (.code []) ('"' :: (l ++ ['"'])) = scan (.literal []) (l ++ ['"']) := rfl
  rw [hopen, scan_append, scan_escaped h]
  rfl

/-! ### What is printed -/

/-- Code that names and refers to nothing but what is allowed. What is `whole` does not end in a word, so that a word
may follow. -/
def Prints (P R : String → Prop) (whole : Bool) (s : String) : Prop :=
  ∃ ts word, scan (.code []) s.toList = (ts, .code word) ∧ (whole → word = []) ∧
    Tells P R (ts ++ (Place.code word).ended)

namespace Prints

theorem of_mem_names (h : Prints P R whole s) (ha : a ∈ names s) : P a := by
  obtain ⟨ts, word, hs, -, htells⟩ := h
  rw [names, tokens, hs] at ha
  exact htells.1 a ha

theorem of_mem_references (h : Prints P R whole s) (ha : a ∈ references s) : R a := by
  obtain ⟨ts, word, hs, -, htells⟩ := h
  rw [references, tokens, hs] at ha
  exact htells.2 a ha

theorem of_scan (hs : scan (.code []) s.toList = (ts, .code [])) (ht : Tells P R ts) : Prints P R whole s :=
  ⟨ts, [], hs, fun _ => rfl, by rwa [Place.ended, List.append_nil]⟩

theorem weaken (h : Prints P R true s) : Prints P R whole s := by
  obtain ⟨ts, word, hs, hword, htells⟩ := h
  exact ⟨ts, word, hs, fun _ => hword rfl, htells⟩

/-- Any code may follow where no word ends. -/
theorem append (hs : Prints P R true s) (ht : Prints P R whole t) : Prints P R whole (s ++ t) := by
  obtain ⟨ts, word, hs, hword, htells⟩ := hs
  obtain ⟨us, word', ht, hword', htells'⟩ := ht
  obtain rfl := hword rfl
  refine ⟨ts ++ us, word', by rw [String.toList_append, scan_append, hs, ht], hword', ?_⟩
  rw [Place.ended, List.append_nil] at htells
  rw [List.append_assoc]
  exact htells.append htells'

/-- A mark may follow in any case. -/
theorem append_mark (hs : Prints P R whole s) (ht : Prints P R whole' t) (hmark : startsWithMark t) :
    Prints P R whole' (s ++ t) := by
  obtain ⟨ts, word, hs, -, htells⟩ := hs
  obtain ⟨us, word', ht, hword', htells'⟩ := ht
  have hnext : scan (.code word) t.toList = ((Place.code word).ended ++ us, .code word') := by
    rw [scan_of_startsWithMark hmark, ht]
  refine ⟨ts ++ ((Place.code word).ended ++ us), word', by rw [String.toList_append, scan_append, hs, hnext],
    hword', ?_⟩
  rw [← List.append_assoc, List.append_assoc]
  exact htells.append htells'

end Prints

theorem prints_empty : Prints P R whole "" := .of_scan rfl ⟨nofun, nofun⟩

theorem ended_word (hs : s.toList ≠ []) : (Place.code s.toList).ended = [.word s] := by
  rw [Place.ended, String.ofList_toList]
  exact hs

theorem prints_word (hs : ∀ c ∈ s.toList, isInWord c) (h : P s) : Prints P R false s := by
  refine ⟨[], s.toList, scan_word [] hs, nofun, ?_⟩
  rw [List.nil_append]
  by_cases hempty : s.toList = []
  · rw [hempty]
    exact ⟨nofun, nofun⟩
  · rw [ended_word hempty]
    exact ⟨fun a ha => List.mem_singleton.mp ha ▸ h, nofun⟩

/-- Whether a text is code that names nothing but the words, and refers to nothing. -/
def isFixed (words : List String) (whole : Bool) (s : String) : Bool :=
  match scan (.code []) s.toList with
  | (ts, .code word) =>
    (!whole || word.isEmpty) && (named.from false (ts ++ (Place.code word).ended)).all (· ∈ words)
      && (referred.from false (ts ++ (Place.code word).ended)).isEmpty
  | _ => false

theorem prints_fixed (h : isFixed words whole s) (hwords : ∀ a ∈ words, P a) : Prints P R whole s := by
  rw [isFixed] at h
  split at h
  · rename_i ts word hs
    simp only [Bool.and_eq_true, Bool.or_eq_true, Bool.not_eq_true', List.isEmpty_iff, List.all_eq_true,
      decide_eq_true_eq] at h
    obtain ⟨⟨hword, hnames⟩, hreferences⟩ := h
    refine ⟨ts, word, hs, fun hwhole => ?_, fun a ha => hwords a (hnames a ha), by simp [hreferences]⟩
    exact hword.resolve_left (by simp [hwhole])
  · cases h

theorem prints_marks (h : isFixed [] true s) : Prints P R whole s := (prints_fixed h nofun).weaken

/-- Whether a text is such code that a word may stand in front of it. -/
def closes (words : List String) (s : String) : Bool := startsWithMark s && isFixed words true s

theorem Prints.closed (h : Prints P R whole' s) (ht : closes [] t) : Prints P R whole (s ++ t) := by
  obtain ⟨hmark, hfixed⟩ := (Bool.and_eq_true_iff).mp ht
  exact h.append_mark (prints_marks hfixed) hmark

theorem Prints.enclosed {before after : String} (h : Prints P R whole' s) (hwords : ∀ a ∈ words, P a)
    (hbefore : isFixed words true before) (hafter : closes words after) :
    Prints P R whole (before ++ s ++ after) := by
  obtain ⟨hmark, hfixed⟩ := (Bool.and_eq_true_iff).mp hafter
  exact ((prints_fixed hbefore hwords).append h).append_mark (prints_fixed hfixed hwords).weaken hmark

theorem prints_intercalate {sep : String} (hsep : Prints P R true sep) (hmark : startsWithMark sep)
    (hls : ∀ l ∈ ls, Prints P R whole l) : Prints P R whole (sep.intercalate ls) := by
  induction ls with
  | nil => exact prints_empty
  | cons l ls ih =>
    obtain ⟨hl, hls⟩ := List.forall_mem_cons.mp hls
    cases ls with
    | nil => simpa using hl
    | cons l' ls =>
      have hparts : sep.intercalate (l :: l' :: ls) = l ++ (sep ++ sep.intercalate (l' :: ls)) :=
        String.toList_inj.mp (by simp [String.toList_intercalate])
      rw [hparts]
      exact hl.append_mark (hsep.append (ih hls)) (startsWithMark_append hmark)

theorem prints_indent {width : Nat} (h : ∀ l ∈ ls, Prints P R whole l) :
    ∀ l ∈ Lines.indent width ls, Prints P R whole l := by
  have hblank : scan (.code []) (String.ofList (List.replicate width ' ')).toList = ([], .code []) := by
    rw [String.toList_ofList]
    induction width with
    | zero => rfl
    | succ width ih =>
      rw [List.replicate_succ]
      exact ih ▸ rfl
  refine List.forall_mem_map.mpr fun l hl => ?_
  split
  · exact h l hl
  · exact (Prints.of_scan hblank ⟨nofun, nofun⟩).append (h l hl)

/-! ### Labels and literals -/

/-- The marks behind a label. -/
def labelMarks : List String := [": ", "?"]

theorem scan_labelMark (ht : t ∈ labelMarks) : startsWithMark t ∧ ∃ c,
    scan (.code []) t.toList = ([.mark c], .code []) ∧ isLabelled [.mark c] := by
  rcases List.mem_pair.mp ht with rfl | rfl
  · exact ⟨by decide, ':', by decide, by decide⟩
  · exact ⟨by decide, '?', by decide, by decide⟩

theorem tells_label {label : Token} (hc : isLabelled [.mark c]) : Tells P R [label, .mark c] := by
  cases label <;> constructor <;> simp [hc]

/-- A label is not named, whether it is a word or a literal. -/
theorem prints_label (hs : ∀ c ∈ s.toList, isInWord c) (ht : t ∈ labelMarks) : Prints P R whole (s ++ t) := by
  obtain ⟨hmark, c, hscan, hlabel⟩ := scan_labelMark ht
  have hword := scan_word [] hs
  rw [List.nil_append] at hword
  have hlabelled : scan (.code []) (s ++ t).toList = ((Place.code s.toList).ended ++ [.mark c], .code []) := by
    rw [String.toList_append, scan_append, hword, scan_of_startsWithMark hmark, hscan]
    rfl
  refine .of_scan hlabelled ?_
  by_cases hempty : s.toList = []
  · rw [hempty]
    exact ⟨by simp [Place.ended], by simp [Place.ended]⟩
  · rw [ended_word hempty]
    exact tells_label hlabel

theorem scan_quoted (s : String) : scan (.code []) (quoted s).toList =
    ([.literal (String.ofList (s.toList.flatMap Quoted.escape))], .code []) := by
  rw [quoted, String.toList_ofList]
  exact scan_literal (isEscaped_flatMap s.toList)

theorem prints_quotedLabel (s : String) (ht : t ∈ labelMarks) : Prints P R whole (quoted s ++ t) := by
  obtain ⟨-, c, hscan, hlabel⟩ := scan_labelMark ht
  have hs : scan (.code []) (quoted s ++ t).toList =
      ([.literal (String.ofList (s.toList.flatMap Quoted.escape)), .mark c], .code []) := by
    rw [String.toList_append, scan_append, scan_quoted, hscan]
    rfl
  exact .of_scan hs (tells_label hlabel)

theorem prints_quoted (hR : ∀ a, R a) (s : String) : Prints P R whole (quoted s) :=
  .of_scan (scan_quoted s) ⟨nofun, fun a _ => hR a⟩

/-- In triple quotes, a text stands between two empty literals. -/
theorem prints_docstring (h : IsEscaped s.toList) (hR : ∀ a, R a) :
    Prints P R whole ("\"\"\"" ++ s ++ "\"\"\"") := by
  have hempty : IsEscaped [] := Python.isEscaped_of_not_mem (by decide) (by decide)
  have hparts : ("\"\"\"" ++ s ++ "\"\"\"").toList =
      ('"' :: ([] ++ ['"'])) ++ ('"' :: (s.toList ++ ['"'])) ++ ('"' :: ([] ++ ['"'])) := by
    simp
  have hscan : scan (.code []) ("\"\"\"" ++ s ++ "\"\"\"").toList =
      ([.literal "", .literal s, .literal ""], .code []) := by
    rw [hparts, scan_append, scan_append, scan_literal hempty, scan_literal h, String.ofList_toList]
    rfl
  exact .of_scan hscan ⟨nofun, fun a _ => hR a⟩

theorem escape_of_isInWord (h : isInWord c) : Quoted.escape c = [c] := by
  rcases escape_cases c with ⟨e, he, -⟩ | ⟨hlt, -⟩ | ⟨-, -, -, hc⟩
  · have hshort : ∀ e ∈ shortEscapes, isInWord e.2 = false := by decide
    simp [hshort _ he] at h
  · have hcontrol : ∀ n < 0x20, isInWord (Char.ofNat n) = false := by decide
    have hc := hcontrol _ hlt
    rw [Char.ofNat_toNat] at hc
    simp [hc] at h
  · exact hc

/-- A word in quotes is referred to. -/
theorem prints_reference (hs : ∀ c ∈ s.toList, isInWord c) (h : R s) : Prints P R whole (quoted s) := by
  have hplain : s.toList.flatMap Quoted.escape = s.toList := by
    rw [List.flatMap_congr fun c hc => escape_of_isInWord (hs c hc)]
    exact List.flatMap_singleton' _
  have hscan : scan (.code []) (quoted s).toList = ([.literal s], .code []) := by
    rw [scan_quoted, hplain, String.ofList_toList]
  exact .of_scan hscan ⟨nofun, fun a ha => List.mem_singleton.mp ha ▸ h⟩

namespace Selection
variable {g : Selection} {skip : Bool} {t : Token}

theorem from_eq_nil (h : ∀ t ∈ ts, g.take t = none) : g.from skip ts = [] := by
  induction ts generalizing skip with
  | nil => rfl
  | cons t ts ih =>
    obtain ⟨ht, hts⟩ := List.forall_mem_cons.mp h
    simp [Selection.from, ht, ih hts]

/-- Where each token makes a reader skip the next one, all are skipped, and one more. -/
theorem from_true_eq_nil (h : ∀ t ∈ ts, g.skips true t) : g.from true (ts ++ [t]) = [] := by
  induction ts with
  | nil => rfl
  | cons u ts ih =>
    obtain ⟨hu, hts⟩ := List.forall_mem_cons.mp h
    rw [List.cons_append, Selection.from, hu, ih hts]
    rfl

end Selection

/-- In a list of literals there are no words, and no brackets. -/
theorem scan_literals (values : List String) : ∃ ts,
    scan (.code []) (", ".intercalate (values.map quoted)).toList = (ts, .code []) ∧
      (∀ t ∈ ts, named.take t = none) ∧ ∀ t ∈ ts, referred.skips true t := by
  rw [String.toList_intercalate, List.map_map]
  induction values with
  | nil => exact ⟨[], rfl, nofun, nofun⟩
  | cons v values ih =>
    cases values with
    | nil => exact ⟨_, by simpa using scan_quoted v, by simp [named], by simp [referred]⟩
    | cons w values =>
      obtain ⟨ts, hts, hnames, hskips⟩ := ih
      have hsep : scan (.code []) ", ".toList = ([.mark ','], .code []) := by decide
      rw [List.map_cons, List.map_cons, List.intercalate_cons_cons, List.append_assoc, scan_append,
        Function.comp_apply, scan_quoted, scan_append, hsep]
      rw [List.map_cons] at hts
      rw [hts]
      refine ⟨_, rfl, ?_, ?_⟩
      · simpa [named] using hnames
      · simpa [referred] using hskips

/-- The values of `Literal` are not referred to. -/
theorem prints_literal (h : P "Literal") (values : List String) :
    Prints P R whole ("Literal[" ++ ", ".intercalate (values.map quoted) ++ "]") := by
  obtain ⟨ts, hts, hnames, hskips⟩ := scan_literals values
  have hhead : scan (.code []) "Literal[".toList = ([.word "Literal", .mark '['], .code []) := by decide
  have hlast : scan (.code []) "]".toList = ([.mark ']'], .code []) := by decide
  have hscan : scan (.code []) ("Literal[" ++ ", ".intercalate (values.map quoted) ++ "]").toList =
      (.word "Literal" :: .mark '[' :: (ts ++ [.mark ']']), .code []) := by
    rw [String.toList_append, String.toList_append, List.append_assoc, scan_append, hhead, scan_append, hts, hlast]
    rfl
  refine .of_scan hscan ⟨?_, ?_⟩
  · have hvalues : named.from false (ts ++ [.mark ']']) = [] :=
      Selection.from_eq_nil (by simpa [or_imp, forall_and, named] using hnames)
    simpa [isLabelled, hvalues] using h
  · have hvalues := Selection.from_true_eq_nil (t := .mark ']') hskips
    simp [hvalues]

end ClientGen.Code
