import ClientGen.Package
import Mathlib.Data.List.TakeWhile

/-! What the info of a document does to its package. The line that heads a file names the document, as it
is; without documentation, no other line does. -/
namespace ClientGen
variable {m : Model} {o : Options} {a : Artifact} {target : Target} {i j : Document.Info} {ends : List Char}

def Target.mark : Target → String
  | .typescript => "//"
  | .python => "#"

/-- What the first line of a file says of the document. -/
def Target.headed (target : Target) (a : Artifact) (i : Document.Info) : List String :=
  match a with
  | .types | .runtime => [i.title, i.version]
  | .flatClient | .serviceClient => [i.title]
  | .validators | .streaming => []
  | .index => if target = .python then [i.title] else []

/-- The same model of a document with other info. -/
def Model.headedBy (m : Model) (i : Document.Info) : Model := { m with info := i }

/-! ### Only the first line is about the info -/

theorem TypeScript.titleComment_noDocs (hd : o.noDocs = true) (what : String) :
    titleComment m o what = [] := by
  simp [titleComment, Options.docs, hd]

theorem TypeScript.render_headedBy (hd : o.noDocs = true) (i : Document.Info) :
    render (m.headedBy i) o a = (render m o a).map fun ls =>
      Lines.header "//" (Target.headed .typescript a i) :: ls.tail := by
  have hcheck : (m.headedBy i).checkTypeNames .typescript (isTaken (m.headedBy i)) =
      m.checkTypeNames .typescript (isTaken m) := rfl
  rw [render.eq_def, render.eq_def m, hcheck]
  cases m.checkTypeNames .typescript (isTaken m) with
  | error e => rfl
  | ok u =>
    cases a with
    | types | validators | runtime | streaming | index => rfl
    | flatClient =>
      have hmethods : flatMethods (m.headedBy i) = flatMethods m := rfl
      simp only [flatClient, hmethods, titleComment_noDocs hd]
      cases flatMethods m with
      | error e => rfl
      | ok methods => rfl
    | serviceClient =>
      have hgrouped : GroupedClient.of (m.headedBy i) = GroupedClient.of m := rfl
      simp only [serviceClient, hgrouped, titleComment_noDocs hd]
      cases GroupedClient.of m with
      | error e => rfl
      | ok g => rfl

theorem Python.titleDoc_noDocs (hd : o.noDocs = true) (what : String) : titleDoc m o what = [] := by
  simp [titleDoc, Options.docs, hd]

theorem Python.render_headedBy (hd : o.noDocs = true) (i : Document.Info) :
    render (m.headedBy i) o a = (render m o a).map fun ls =>
      Lines.header "#" (Target.headed .python a i) :: ls.tail := by
  have hcheck : (m.headedBy i).checkTypeNames .python (isTaken (m.headedBy i)) =
      m.checkTypeNames .python (isTaken m) := rfl
  rw [render.eq_def, render.eq_def m, hcheck]
  cases m.checkTypeNames .python (isTaken m) with
  | error e => rfl
  | ok u =>
    cases a with
    | types | validators | runtime | streaming | index => rfl
    | flatClient =>
      have hmethods : flatMethods (m.headedBy i) = flatMethods m := rfl
      simp only [flatClient, flatClass, hmethods, titleDoc_noDocs hd]
      cases flatMethods m with
      | error e => rfl
      | ok methods => rfl
    | serviceClient =>
      have hgrouped : GroupedClient.of (m.headedBy i) = GroupedClient.of m := rfl
      simp only [serviceClient, groupedClass, hgrouped, titleDoc_noDocs hd]
      cases GroupedClient.of m with
      | error e => rfl
      | ok g => rfl

theorem Target.render_headedBy (hd : o.noDocs = true) (target : Target) (i : Document.Info) :
    target.render (m.headedBy i) o a = (target.render m o a).map fun ls =>
      Lines.header target.mark (target.headed a i) :: ls.tail := by
  cases target with
  | typescript => exact TypeScript.render_headedBy hd i
  | python => exact Python.render_headedBy hd i

/-! ### Lines as a reader of the text finds them -/

variable {s t : String}

/-- Characters that end a line: the line feed, and possibly others that are not printed. -/
structure IsLineEnds (ends : List Char) : Prop where
  feed : '\n' ∈ ends
  unprinted : ∀ c ∈ ends, c.toNat < 32 ∨ 126 < c.toNat

def OneLine (ends : List Char) (s : String) : Prop := ∀ c ∈ s.toList, c ∉ ends

instance : Decidable (OneLine ends s) :=
  decidable_of_iff (s.toList.all fun c => !ends.contains c) (by simp [OneLine])

/-- Of characters that are printed. -/
def isPrinted (s : String) : Bool := s.toList.all fun c => 32 ≤ c.toNat && c.toNat ≤ 126

/-- What is left of a text after the end of its first line. -/
def afterLine (ends : List Char) (text : String) : List Char :=
  (text.toList.dropWhile fun c => c ∉ ends).tail

theorem OneLine.of_printed (h : IsLineEnds ends) (hs : isPrinted s) : OneLine ends s := by
  intro c hc hend
  have hprinted : 32 ≤ c.toNat ∧ c.toNat ≤ 126 := by simpa using List.all_eq_true.mp hs c hc
  have hunprinted := h.unprinted c hend
  omega

theorem OneLine.append_iff : OneLine ends (s ++ t) ↔ OneLine ends s ∧ OneLine ends t := by
  rw [OneLine, String.toList_append, List.forall_mem_append]
  rfl

theorem OneLine.intercalate_iff {sep : String} (hsep : OneLine ends sep) {sources : List String} :
    OneLine ends (sep.intercalate sources) ↔ ∀ s ∈ sources, OneLine ends s := by
  induction sources with
  | nil => simp [OneLine]
  | cons s rest ih =>
    cases rest with
    | nil => simp
    | cons next rest =>
      rw [String.intercalate_cons_cons, OneLine.append_iff, OneLine.append_iff, ih, List.forall_mem_cons]
      simp [hsep]

theorem oneLine_header_iff (h : IsLineEnds ends) {mark : String}
    (hmark : isPrinted mark) {sources : List String} :
    OneLine ends (Lines.header mark sources) ↔ ∀ s ∈ sources, OneLine ends s := by
  have hmark : OneLine ends mark := .of_printed h hmark
  have hby : OneLine ends " Generated by sdkgen" := .of_printed h (by decide)
  have hfrom : OneLine ends " from " := .of_printed h (by decide)
  have hblank : OneLine ends " " := .of_printed h (by decide)
  have hedit : OneLine ends ". Do not edit." := .of_printed h (by decide)
  rw [Lines.header]
  cases sources with
  | nil => simp [OneLine.append_iff, hmark, hby, hedit]
  | cons s rest => simp [OneLine.append_iff, hmark, hby, hfrom, hedit, hblank.intercalate_iff]

/-- The rest of a text is what follows its first line, as long as that is one line. -/
theorem afterLine_text_iff (h : IsLineEnds ends) (line : String) (ls : Lines) :
    afterLine ends (Lines.text (line :: ls)) = (Lines.text ls).toList ↔ OneLine ends line := by
  have htext : (Lines.text (line :: ls)).toList = line.toList ++ '\n' :: (Lines.text ls).toList := by
    simp [Lines.text]
  have hstop : (decide ('\n' ∉ ends)) = false := by simp [h.feed]
  rw [afterLine, htext]
  constructor
  · intro heq c hc hend
    have hleft : line.toList.dropWhile (fun c => decide (c ∉ ends)) ≠ [] := by
      intro hnil
      have hfree := List.dropWhile_eq_nil_iff.mp hnil c hc
      simp [hend] at hfree
    rw [List.dropWhile_append, if_neg (by simpa using hleft), List.tail_append_of_ne_nil hleft] at heq
    have hlength := congrArg List.length heq
    simp only [List.length_append, List.length_cons] at hlength
    omega
  · intro hline
    rw [List.dropWhile_append_of_pos (by simpa [OneLine] using hline), List.dropWhile_cons, hstop]
    rfl

/-- Under two headings, the second of which is one line, a file goes on alike if and only if the first is one
line too. -/
theorem afterLine_headers_iff (h : IsLineEnds ends) (mark : String)
    (hmark : isPrinted mark) {sources others : List String}
    (hothers : ∀ s ∈ others, OneLine ends s) (ls : Lines) :
    afterLine ends (Lines.text (Lines.header mark sources :: ls)) =
        afterLine ends (Lines.text (Lines.header mark others :: ls)) ↔ ∀ s ∈ sources, OneLine ends s := by
  have hrest := (afterLine_text_iff h (Lines.header mark others) ls).mpr
    ((oneLine_header_iff h hmark).mpr hothers)
  rw [← oneLine_header_iff h hmark, ← afterLine_text_iff h _ ls, hrest]

/-- Two runs on one model, of documents with different info and without documentation: either both fail for
the same reason, or the files have one name and differ at most in their first lines, exactly as long as
what is printed of the info is one line. -/
theorem Model.info_after_header_iff (h : IsLineEnds ends) (hd : o.noDocs = true)
    (hj : ∀ s ∈ target.headed a j, OneLine ends s) (i : Document.Info) :
    (∃ e, (m.headedBy i).renderFile target o a = .error e ∧ (m.headedBy j).renderFile target o a = .error e) ∨
      ∃ f g, (m.headedBy i).renderFile target o a = .ok f ∧ (m.headedBy j).renderFile target o a = .ok g ∧
        f.name = g.name ∧
        (afterLine ends f.text = afterLine ends g.text ↔ ∀ s ∈ target.headed a i, OneLine ends s) := by
  have hmark : isPrinted target.mark := by cases target <;> decide
  simp only [renderFile, Target.render_headedBy hd]
  cases target.render m o a with
  | error e => exact .inl ⟨e, rfl, rfl⟩
  | ok ls => exact .inr ⟨_, _, rfl, rfl, rfl, afterLine_headers_iff h _ hmark hj ls.tail⟩

/-- A document that declares nothing. -/
def Api.bare : Api := ⟨⟨"t", none, "1"⟩, none, [], []⟩

theorem Model.info_after_header_renamed : ∃ m f g, Api.bare.prepare (some .empty) .names = .ok (.ready m) ∧
    (m.headedBy ⟨"Zoo", none, "2"⟩).renderFile .python ⟨.flat, none, 30, true⟩ .types = .ok f ∧
    (m.headedBy ⟨"Pets", none, "1"⟩).renderFile .python ⟨.flat, none, 30, true⟩ .types = .ok g ∧
    f.text ≠ g.text ∧ afterLine ['\n', '\r'] f.text = afterLine ['\n', '\r'] g.text := by
  obtain ⟨m, f, g, hm, hf, hg, hne⟩ : ∃ m f g, Api.bare.prepare (some .empty) .names = .ok (.ready m) ∧
      (m.headedBy ⟨"Zoo", none, "2"⟩).renderFile .python ⟨.flat, none, 30, true⟩ .types = .ok f ∧
      (m.headedBy ⟨"Pets", none, "1"⟩).renderFile .python ⟨.flat, none, 30, true⟩ .types = .ok g ∧
      f.text ≠ g.text :=
    ⟨_, _, _, rfl, rfl, rfl, by decide⟩
  refine ⟨m, f, g, hm, hf, hg, hne, ?_⟩
  have hends : IsLineEnds ['\n', '\r'] := ⟨by decide, by simp⟩
  have hpets : ∀ s ∈ Target.headed .python .types ⟨"Pets", none, "1"⟩, OneLine ['\n', '\r'] s := by decide
  have runs :=
    Model.info_after_header_iff (m := m) (o := ⟨.flat, none, 30, true⟩) hends rfl hpets ⟨"Zoo", none, "2"⟩
  rcases runs with ⟨e, he, -⟩ | ⟨f', g', hf', hg', -, hiff⟩
  · rw [hf] at he
    cases he
  · rw [hf] at hf'
    rw [hg] at hg'
    cases hf'
    cases hg'
    exact hiff.mpr (by decide)

/-- The second line of the title is the second line of the file. -/
theorem Model.info_after_header_lineFeed : ∃ m f g, Api.bare.prepare (some .empty) .names = .ok (.ready m) ∧
    (m.headedBy ⟨"a\nb", none, "1"⟩).renderFile .python ⟨.flat, none, 30, true⟩ .types = .ok f ∧
    (m.headedBy ⟨"a", none, "1"⟩).renderFile .python ⟨.flat, none, 30, true⟩ .types = .ok g ∧
    afterLine ['\n'] f.text ≠ afterLine ['\n'] g.text := by
  refine ⟨_, _, _, rfl, rfl, rfl, fun heq => ?_⟩
  have hends : IsLineEnds ['\n'] := ⟨by decide, by simp⟩
  have hone := (afterLine_headers_iff hends "#" (by decide) (by decide) _).mp heq
  exact absurd (hone "a\nb" (List.mem_cons_self ..)) (by decide)

end ClientGen
