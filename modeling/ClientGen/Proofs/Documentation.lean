import Mathlib.Algebra.Ring.Parity
import ClientGen.Proofs.Text
import ClientGen.Python.Method
import ClientGen.TypeScript.Comment

/-! Texts of a document within comments and docstrings: whatever they are, they do not end what they are in. -/
namespace ClientGen
open Text

/-! ### Comments -/

namespace TypeScript
variable {s : List Char}

/-- The mark that ends a comment does not stand at these two characters. -/
def Apart (a b : Char) : Prop := ¬(a = '*' ∧ b = '/')
deriving Decidable

theorem Apart.no_mark (h : List.IsChain Apart s) : ¬"*/".toList <:+: s := by
  rintro ⟨before, after, rfl⟩
  have hs : before ++ "*/".toList ++ after = before ++ '*' :: '/' :: after := by simp
  rw [hs] at h
  exact List.isChain_iff_forall_rel_of_append_cons_cons.mp h rfl ⟨rfl, rfl⟩

/-- The text with every mark that ends a comment broken up. -/
def broken (s : List Char) : List Char := replace "*/".toList "*\\/".toList s

theorem broken_mark (s : List Char) : broken ('*' :: '/' :: s) = '*' :: '\\' :: '/' :: broken s :=
  replace_append (show "*/".toList ≠ [] from List.cons_ne_nil _ _)

/-- No mark comes about anew: the first character stays, so no slash comes to stand behind a star. -/
theorem broken_spec (s : List Char) : List.IsChain Apart (broken s) ∧ (broken s).head? = s.head? := by
  match s with
  | [] => exact ⟨.nil, rfl⟩
  | c :: s =>
    by_cases h : "*/".toList <+: c :: s
    · obtain ⟨rest, hrest⟩ := h
      obtain ⟨rfl, rfl⟩ : '*' = c ∧ '/' :: rest = s := List.cons.inj hrest
      obtain ⟨hchain, -⟩ := broken_spec rest
      rw [broken_mark]
      refine ⟨.cons_cons (by decide) (.cons_cons (by decide) ?_), rfl⟩
      refine List.isChain_cons.mpr ⟨fun d _ hd => ?_, hchain⟩
      exact absurd hd.1 (by decide)
    · obtain ⟨hchain, hhead⟩ := broken_spec s
      have hb : broken (c :: s) = c :: broken s := replace_cons h
      rw [hb]
      refine ⟨List.isChain_cons.mpr ⟨?_, hchain⟩, rfl⟩
      rintro d hd ⟨rfl, rfl⟩
      rw [hhead, Option.mem_def, List.head?_eq_some_iff] at hd
      obtain ⟨rest, rfl⟩ := hd
      exact h ⟨rest, rfl⟩
termination_by s.length

theorem apart_beside {c : Char} (hstar : c ≠ '*') (hslash : c ≠ '/') (a : Char) :
    Apart a c ∧ Apart c a :=
  ⟨fun h => hslash h.2, fun h => hstar h.1⟩

theorem intercalate_lines (s : List Char) : ['\n'].intercalate (lines s) = s := List.intercalate_splitOn '\n'

/-- A comment is one line without the mark that ends comments, and shows what the text shows. -/
theorem comment_spec (s : String) :
    ¬"*/".toList <:+: (comment s).toList ∧ '\n' ∉ (comment s).toList ∧
      visible (comment s).toList = visible (broken s.toList) := by
  have hc : (comment s).toList = [' '].intercalate (kept (lines (broken s.toList))) := String.toList_ofList
  have hspace := apart_beside (c := ' ') (by decide) (by decide)
  have hfeed := apart_beside (c := '\n') (by decide) (by decide)
  rw [hc]
  refine ⟨Apart.no_mark ?_, ?_, ?_⟩
  · have hall : ∀ l ∈ lines (broken s.toList), List.IsChain Apart l := by
      rw [← isChain_intercalate_iff (fun a => (hfeed a).1) (fun a => (hfeed a).2), intercalate_lines]
      exact (broken_spec s.toList).1
    rw [isChain_intercalate_iff (fun a => (hspace a).1) (fun a => (hspace a).2)]
    intro t ht
    obtain ⟨l, hl, htrim⟩ := exists_of_mem_kept ht
    exact List.IsChain.infix (hall l hl) htrim.isInfix
  · have hkept : ∀ t ∈ kept (lines (broken s.toList)), ∀ c ∈ t, c ≠ '\n' := by
      intro t ht c hc
      obtain ⟨l, hl, htrim⟩ := exists_of_mem_kept ht
      simpa using forall_of_mem_splitOnP hl c (htrim.isInfix.subset hc)
    have hsep : ∀ c ∈ [' '], c ≠ '\n' := by simp
    intro hmem
    exact (forall_mem_intercalate_iff hsep).mpr hkept _ hmem rfl
  · have hspace : visible [' '] = [] := by decide
    have hfeed : visible ['\n'] = [] := by decide
    rw [visible_intercalate hspace, flatMap_visible_kept, ← visible_intercalate hfeed, intercalate_lines]

end TypeScript

/-! ### Docstrings -/

namespace Python
variable {front s t : List Char} {v : OperationView}

/-- How many backslashes the text ends in. -/
def backslashes (s : List Char) : Nat := (s.reverse.takeWhile (· = '\\')).length

/-- Every quote is escaped, and what follows the text is not. -/
structure IsEscaped (s : List Char) : Prop where
  quotes : ∀ before after, s = before ++ '"' :: after → Odd (backslashes before)
  ending : ¬Odd (backslashes s)

theorem odd_backslashes_append (h : ¬Odd (backslashes front)) :
    Odd (backslashes (front ++ s)) ↔ Odd (backslashes s) := by
  simp only [backslashes, List.reverse_append, List.takeWhile_append]
  split
  · rename_i hall
    rw [Nat.odd_iff] at h ⊢
    rw [Nat.odd_iff, List.length_append, hall]
    simp only [backslashes] at h
    omega
  · rfl

theorem IsEscaped.append (hs : IsEscaped s) (ht : IsEscaped t) : IsEscaped (s ++ t) where
  quotes before after h := by
    rcases List.append_eq_append_iff.mp h with ⟨between, rfl, ht'⟩ | ⟨between, hs', ht'⟩
    · exact (odd_backslashes_append hs.ending).mpr (ht.quotes between after ht')
    · cases between with
      | nil => exact absurd (ht.quotes [] after ht'.symm) (by decide)
      | cons c between =>
        obtain ⟨rfl, -⟩ := List.cons.inj ht'
        exact hs.quotes before between hs'
  ending := by
    rw [odd_backslashes_append hs.ending]
    exact ht.ending

theorem IsEscaped.of_append (hf : ¬Odd (backslashes front)) (h : IsEscaped (front ++ s)) : IsEscaped s where
  quotes before after hs := by
    rw [← odd_backslashes_append hf]
    exact h.quotes (front ++ before) after (by rw [hs, List.append_assoc])
  ending := by
    rw [← odd_backslashes_append hf]
    exact h.ending

/-! ### Escaping and undoing it -/

def escape (s : List Char) : List Char := s.flatMap escapeDoc

/-- Undoes the escapes of backslashes and quotes. -/
def unescape : List Char → List Char
  | '\\' :: '\\' :: s => '\\' :: unescape s
  | '\\' :: '"' :: s => '"' :: unescape s
  | c :: s => c :: unescape s
  | [] => []

theorem isEscaped_of_not_mem (hq : '"' ∉ s) (he : ¬Odd (backslashes s)) : IsEscaped s where
  quotes before after h := (hq (by simp [h])).elim
  ending := he

theorem isEscaped_escapeDoc (c : Char) : IsEscaped (escapeDoc c) := by
  rw [escapeDoc]
  split
  · exact isEscaped_of_not_mem (by decide) (by decide)
  · rename_i hslash
    split
    · refine ⟨fun before after h => ?_, by decide⟩
      match before, h with
      | ['\\'], _ => decide
      | _ :: _ :: before, h => simp at h
    · rename_i hquote
      refine isEscaped_of_not_mem (by simpa using Ne.symm hquote) ?_
      simp [backslashes, hslash]

theorem isEscaped_escape (s : List Char) : IsEscaped (escape s) := by
  induction s with
  | nil => exact isEscaped_of_not_mem (by decide) (by decide)
  | cons c s ih => exact (isEscaped_escapeDoc c).append ih

theorem unescape_escapeDoc_append (c : Char) (s : List Char) :
    unescape (escapeDoc c ++ s) = c :: unescape s := by
  rw [escapeDoc]
  split
  · subst c
    rfl
  · rename_i hslash
    split
    · subst c
      rfl
    · rw [List.singleton_append, unescape]
      · exact fun _ h => (hslash h).elim
      · exact fun _ h => (hslash h).elim

theorem unescape_escape (s : List Char) : unescape (escape s) = s := by
  induction s with
  | nil => rfl
  | cons c s ih =>
    rw [escape, List.flatMap_cons, unescape_escapeDoc_append]
    exact congrArg (c :: ·) ih

/-! ### Reading a literal -/

/-- The text of a triple-quoted literal, read from behind its opening, and what follows the closing. -/
def readLiteral : List Char → Option (List Char × List Char)
  | '\\' :: c :: s => (readLiteral s).map fun (text, rest) => ('\\' :: c :: text, rest)
  | '"' :: '"' :: '"' :: s => some ([], s)
  | c :: s => (readLiteral s).map fun (text, rest) => (c :: text, rest)
  | [] => none

/-- A backslash takes the next character with it, and what goes on behind them is escaped too. -/
theorem IsEscaped.cons_cases {c : Char} {s : List Char} (h : IsEscaped (c :: s)) :
    (c = '\\' ∧ ∃ d t, s = d :: t ∧ IsEscaped t) ∨ (c ≠ '\\' ∧ c ≠ '"' ∧ IsEscaped s) := by
  by_cases hslash : c = '\\'
  · subst hslash
    cases s with
    | nil => exact absurd h.ending (by decide)
    | cons d t =>
      have hd : ¬Odd (backslashes ['\\', d]) := by
        by_cases hd : d = '\\' <;> simp [backslashes, hd]
      exact .inl ⟨rfl, d, t, rfl, h.of_append hd⟩
  · have hquote : c ≠ '"' := by
      rintro rfl
      exact absurd (h.quotes [] s rfl) (by decide)
    have hc : ¬Odd (backslashes [c]) := by simp [backslashes, hslash]
    exact .inr ⟨hslash, hquote, h.of_append hc⟩

/-- What is escaped is read to its end, and the quotes behind it are what closes the literal. -/
theorem readLiteral_append {s : List Char} (h : IsEscaped s) (rest : List Char) :
    readLiteral (s ++ ("\"\"\"".toList ++ rest)) = some (s, rest) := by
  match s with
  | [] => rfl
  | c :: s =>
    rcases h.cons_cases with ⟨rfl, d, t, rfl, ht⟩ | ⟨hslash, hquote, hs⟩
    · have hread : readLiteral (t ++ ("\"\"\"".toList ++ rest)) = some (t, rest) := readLiteral_append ht rest
      simp only [List.cons_append, readLiteral, hread, Option.map_some]
    · have hread : readLiteral (s ++ ("\"\"\"".toList ++ rest)) = some (s, rest) := readLiteral_append hs rest
      rw [List.cons_append, readLiteral, hread, Option.map_some]
      · exact fun _ _ h _ => (hslash h).elim
      · exact fun _ h _ => (hquote h).elim
termination_by s.length

/-! ### The paragraphs of an operation -/

theorem toList_docText (s : String) : (docText s).toList = escape (trimBlank s.toList) := String.toList_ofList

theorem escape_append (s t : List Char) : escape (s ++ t) = escape s ++ escape t := List.flatMap_append

theorem escape_eq_nil_iff : escape s = [] ↔ s = [] := by
  constructor
  · intro h
    rw [← unescape_escape s, h, unescape]
  · rintro rfl
    rfl

theorem escape_intercalate (hsep : escape front = front) (ts : List (List Char)) :
    escape (front.intercalate ts) = front.intercalate (ts.map escape) := by
  induction ts with
  | nil => rfl
  | cons t ts ih =>
    cases ts with
    | nil => simp
    | cons next ts =>
      rw [List.map_cons, List.map_cons, List.intercalate_cons_cons, List.intercalate_cons_cons,
        escape_append, escape_append, hsep, ih, List.map_cons]

/-- What the docstring of an operation tells, before it is escaped and laid out. -/
def paragraphs (v : OperationView) : List (List Char) :=
  kept ((v.summary.toList ++ v.description.toList).map String.toList) ++
    if v.deprecated then ["Deprecated.".toList] else []

theorem map_toList_docTexts (ss : List String) :
    ((ss.map docText).filter (!·.isEmpty)).map String.toList = (kept (ss.map String.toList)).map escape := by
  have hempty (s : String) : (docText s).isEmpty = (trimBlank s.toList).isEmpty := by
    rw [Bool.eq_iff_iff, String.isEmpty_iff, List.isEmpty_iff, ← escape_eq_nil_iff, ← toList_docText,
      String.toList_eq_nil_iff]
  induction ss with
  | nil => rfl
  | cons s ss ih =>
    rw [kept, List.map_cons, List.map_cons, List.map_cons, List.filter_cons, List.filter_cons, hempty]
    split
    · rw [List.map_cons, List.map_cons, ih, toList_docText, kept]
    · exact ih

/-- The line and the margin between two paragraphs. -/
def gap : List Char := "\n\n        ".toList

/-- The margin in front of what closes a docstring of several paragraphs. -/
def margin : List Char := "\n        ".toList

/-- Paragraphs as one text. -/
def layout : List (List Char) → Option (List Char)
  | [] => none
  | [text] => some text
  | texts => some (gap.intercalate texts ++ margin)

theorem layout_eq_none_iff {ts : List (List Char)} : layout ts = none ↔ ts = [] := by
  fun_cases layout ts <;> simp_all

theorem visible_of_mem_layout {ts : List (List Char)} (h : t ∈ layout ts) : visible t = ts.flatMap visible := by
  have hgap : visible gap = [] := by decide
  have hmargin : visible margin = [] := by decide
  match ts, h with
  | [text], h =>
    obtain rfl : text = t := Option.some.inj h
    simp
  | text :: next :: ts, h =>
    obtain rfl : gap.intercalate (text :: next :: ts) ++ margin = t := Option.some.inj h
    rw [visible_append, visible_intercalate hgap, hmargin, List.append_nil]

/-- A docstring is escaped as a whole: what it is laid out with needs no escape. -/
theorem docstring_eq (v : OperationView) :
    (docstring v).map String.toList = (layout (paragraphs v)).map escape := by
  have htexts : (((v.summary.toList ++ v.description.toList).map docText).filter (!·.isEmpty) ++
      if v.deprecated then ["Deprecated."] else []).map String.toList = (paragraphs v).map escape := by
    have hnote : (if v.deprecated then ["Deprecated."] else []).map String.toList =
        (if v.deprecated then ["Deprecated.".toList] else []).map escape := by
      cases v.deprecated <;> rfl
    rw [paragraphs, List.map_append, map_toList_docTexts, hnote, ← List.map_append]
  rw [docstring]
  generalize ((v.summary.toList ++ v.description.toList).map docText).filter (!·.isEmpty) ++
    (if v.deprecated then ["Deprecated."] else []) = texts at htexts ⊢
  generalize paragraphs v = ts at htexts ⊢
  match texts, ts, htexts with
  | [], [], _ => rfl
  | [text], [t], h => exact congrArg some (List.cons.inj h).1
  | [_], _ :: _ :: _, h => simp at h
  | _ :: _ :: _, [_], h => simp at h
  | text :: next :: texts, t :: next' :: ts, h =>
    have hgap : escape gap = gap := by decide
    have hmargin : escape margin = margin := by decide
    simp only [layout, Option.map_some, String.toList_append, String.toList_intercalate, h, escape_append,
      escape_intercalate hgap, hmargin]
    rfl

/-- What an operation tells of itself. -/
def told (v : OperationView) : List Char :=
  (v.summary.getD "").toList ++ (v.description.getD "").toList ++
    (if v.deprecated then "Deprecated." else "").toList

theorem flatMap_visible_paragraphs (v : OperationView) :
    (paragraphs v).flatMap visible = visible (told v) := by
  have hnote : (if v.deprecated then ["Deprecated.".toList] else []).flatMap visible =
      visible (if v.deprecated then "Deprecated." else "").toList := by
    cases v.deprecated <;> rfl
  rw [paragraphs, List.flatMap_append, flatMap_visible_kept, hnote, told, visible_append, visible_append]
  cases v.summary <;> cases v.description <;> simp [visible]

theorem paragraphs_eq_nil_iff : paragraphs v = [] ↔ visible (told v) = [] := by
  rw [← flatMap_visible_paragraphs, List.flatMap_eq_nil_iff]
  constructor
  · intro h
    simp [h]
  · intro h
    refine List.eq_nil_iff_forall_not_mem.mpr fun t ht => ?_
    rcases List.mem_append.mp ht with hkept | hnote
    · exact visible_ne_nil_of_mem_kept hkept (h t ht)
    · split at hnote
      · rw [List.mem_singleton] at hnote
        exact absurd (hnote ▸ h t ht) (by decide)
      · cases hnote

/-- An operation has a docstring if it tells anything, and the docstring shows all of it. -/
theorem docstring_spec (v : OperationView) :
    (docstring v = none ↔ visible (told v) = []) ∧
      ∀ text ∈ docstring v, ∃ t, text.toList = escape t ∧ visible t = visible (told v) := by
  constructor
  · rw [← Option.map_eq_none_iff (f := String.toList), docstring_eq, Option.map_eq_none_iff,
      layout_eq_none_iff, paragraphs_eq_nil_iff]
  · intro text htext
    have hmem : text.toList ∈ (docstring v).map String.toList := Option.mem_map_of_mem _ htext
    rw [docstring_eq, Option.mem_map] at hmem
    obtain ⟨t, ht, hescape⟩ := hmem
    exact ⟨t, hescape.symm, by rw [visible_of_mem_layout ht, flatMap_visible_paragraphs]⟩

end Python

open Python

/-- Whatever a document says stays in the comment or the docstring that it is put in, and is all there. -/
theorem documentation_contained (s : String) (v : OperationView) :
    (¬"*/".toList <:+: (TypeScript.comment s).toList ∧ '\n' ∉ (TypeScript.comment s).toList ∧
      visible (TypeScript.comment s).toList = visible (TypeScript.broken s.toList)) ∧
    (IsEscaped (docText s).toList ∧ IsTrimmed s.toList (unescape (docText s).toList) ∧
      ∀ rest, readLiteral ((docText s).toList ++ ("\"\"\"".toList ++ rest)) =
        some ((docText s).toList, rest)) ∧
    (docstring v = none ↔ visible (told v) = []) ∧
    ∀ text ∈ docstring v, IsEscaped text.toList ∧ visible (unescape text.toList) = visible (told v) ∧
      ∀ rest, readLiteral (text.toList ++ ("\"\"\"".toList ++ rest)) = some (text.toList, rest) := by
  have hdoc : IsEscaped (docText s).toList := toList_docText s ▸ isEscaped_escape _
  refine ⟨TypeScript.comment_spec s, ⟨hdoc, ?_, readLiteral_append hdoc⟩, (docstring_spec v).1, ?_⟩
  · rw [toList_docText, unescape_escape]
    exact isTrimmed_trimBlank _
  · intro text htext
    obtain ⟨t, ht, hvisible⟩ := (docstring_spec v).2 text htext
    have hescaped : IsEscaped text.toList := ht ▸ isEscaped_escape t
    exact ⟨hescaped, by rw [ht, unescape_escape, hvisible], readLiteral_append hescaped⟩

/-- Quotes and backslashes at the ends of both texts of an operation. -/
theorem documentation_contained_quotes :
    let v : OperationView :=
      { name := Name.ofText "say", extractedId := "say", method := .get, path := "/", pathParams := [],
        queryParams := [], body := none, response := .empty, stream := none,
        summary := some " Says \"hi\"\n", description := some "\"\"\" or \\", deprecated := true,
        namedTypes := [] }
    let text := "Says \\\"hi\\\"\n\n        \\\"\\\"\\\" or \\\\\n\n        Deprecated.\n        "
    docstring v = some text ∧
      readLiteral (text.toList ++ ("\"\"\"".toList ++ "\n".toList)) = some (text.toList, "\n".toList) := by
  intro v text
  have htext : docstring v = some text := by decide
  exact ⟨htext, ((documentation_contained "" v).2.2.2 text htext).2.2 _⟩

end ClientGen
