import ClientGen.Proofs.Literal
import ClientGen.Proofs.Package.Fields
import ClientGen.Proofs.Package.Parameters
import ClientGen.Proofs.Renaming.Identifiers

/-! Requests: what a method passes on. Its names stand there as literals and keys, so a request tells all of
them, whatever they are. -/
namespace ClientGen
open Letter
variable {r r' : List Char}

/-! ### Openings -/

theorem Method.verb_inj {a b : Method} : a.verb = b.verb ↔ a = b := by
  cases a <;> cases b <;> decide

/-- What a request begins with is found again. -/
theorem opening_inj {verb verb' path path' : String}
    (h : (quoted verb).toList ++ (", ".toList ++ ((quoted path).toList ++ r)) =
      (quoted verb').toList ++ (", ".toList ++ ((quoted path').toList ++ r'))) :
    verb = verb' ∧ path = path' ∧ r = r' := by
  obtain ⟨hverb, h⟩ := Json.quoted_append_inj h
  exact ⟨hverb, Json.quoted_append_inj (List.append_cancel_left h)⟩

/-! ### Requests in Python -/

namespace Python
variable {used names ids : List String} {ps qs : List (String × String)} {s t : List Char}
  {v w : OperationView} {m n : Model} {op op' : Api.Operation}

theorem Named.closers_not_mem (h : Named used names ids) : ∀ id ∈ ids, ∀ c ∈ id.toList, c ∉ closers := by
  have hfree : ∀ c ∈ closers, ¬(IsInner c ∨ c = '_') := List.forall_iff_forall_mem.mp (by decide)
  induction h with
  | nil => exact nofun
  | @cons _ _ _ name _ hid _ ih =>
    obtain ⟨k, rfl, -, -⟩ := hid
    refine List.forall_mem_cons.mpr ⟨fun c hc hcloser => hfree c hcloser ?_, ih⟩
    cases k with
    | zero => exact inner_ident name c hc
    | succ k =>
      simp only [candidate, String.toList_append, List.mem_append] at hc
      rcases hc with (hc | hc) | hc
      · exact inner_ident name c hc
      · exact .inr (by simpa using hc)
      · exact .inl (.inl (Identifier.ascii_toString _ c hc))

namespace ClientMethod

theorem mapping_append_inj (hp : PlainValues ps) (hq : PlainValues qs)
    (h : (mapping ps).toList ++ s = (mapping qs).toList ++ t) : ps = qs ∧ s = t := by
  have hend (r : List Char) : ∀ a ∈ ('\x7d' :: r).head?, a ∈ closers ∧ a ≠ ',' :=
    forall_mem_head?_cons.mpr (by decide)
  have hentries : [',', ' '].intercalate (ps.map fun e => (quoted e.1 ++ ": " ++ e.2).toList) ++ '\x7d' :: s =
      [',', ' '].intercalate (qs.map fun e => (quoted e.1 ++ ": " ++ e.2).toList) ++ '\x7d' :: t := by
    simpa [mapping, String.toList_intercalate, Function.comp_def] using h
  obtain ⟨hsame, hrest⟩ := showsEnds_quoted.entry.list (by decide) hp hq (hend s) (hend t) hentries
  exact ⟨hsame, (List.cons.inj hrest).2⟩

/-- The entries under a label, if there are any. -/
def labelled (label : String) (ps : List (String × String)) : String :=
  if ps.isEmpty then "" else label ++ mapping ps

theorem labelled_append_inj {label : String} (hp : PlainValues ps) (hq : PlainValues qs)
    (hs : ¬label.toList <+: s) (ht : ¬label.toList <+: t)
    (h : (labelled label ps).toList ++ s = (labelled label qs).toList ++ t) : ps = qs ∧ s = t := by
  rw [labelled, labelled] at h
  split at h <;> split at h
  · rename_i hps hqs
    rw [List.isEmpty_iff.mp hps, List.isEmpty_iff.mp hqs]
    exact ⟨rfl, h⟩
  · exact (hs (by simp [show s = _ from h])).elim
  · exact (ht (by simp [show t = _ from h.symm])).elim
  · rw [String.toList_append, String.toList_append, List.append_assoc, List.append_assoc] at h
    exact mapping_append_inj hp hq (List.append_cancel_left h)

def passedBody (body : Bool) : String := if body then ", body=body" else ""

theorem request_eq (c : ClientMethod) : c.request = quoted c.verb ++ ", " ++ quoted c.path ++
    labelled ", path_params=" c.pathParams ++ labelled ", query=" c.query ++ passedBody c.body := rfl

theorem not_prefix_passedBody (body : Bool) : ¬", query=".toList <+: (passedBody body).toList := by
  revert body
  decide

theorem not_prefix_query (c : ClientMethod) :
    ¬", path_params=".toList <+: (labelled ", query=" c.query).toList ++ (passedBody c.body).toList := by
  rw [labelled]
  split
  · cases c.body <;> decide
  · simp

/-- Requests that are written alike pass on the same. -/
theorem request_inj {c d : ClientMethod} (hc : PlainValues (c.pathParams ++ c.query))
    (hd : PlainValues (d.pathParams ++ d.query)) (h : c.request = d.request) :
    c.verb = d.verb ∧ c.path = d.path ∧ c.pathParams = d.pathParams ∧ c.query = d.query := by
  obtain ⟨hcPath, hcQuery⟩ := List.forall_mem_append.mp hc
  obtain ⟨hdPath, hdQuery⟩ := List.forall_mem_append.mp hd
  have hparts := congrArg String.toList h
  simp only [request_eq, String.toList_append, List.append_assoc] at hparts
  obtain ⟨hverb, hpath, hparts⟩ := opening_inj hparts
  obtain ⟨hpathParams, hparts⟩ :=
    labelled_append_inj hcPath hdPath (not_prefix_query c) (not_prefix_query d) hparts
  obtain ⟨hquery, -⟩ :=
    labelled_append_inj hcQuery hdQuery (not_prefix_passedBody _) (not_prefix_passedBody _) hparts
  exact ⟨hverb, hpath, hpathParams, hquery⟩

/-- The entries of a request stand for the parameters of the operation, in their order. -/
theorem entries_ofView (v : OperationView) :
    (ofView v).pathParams.map Prod.fst = v.pathParams.map (·.name) ∧
      (ofView v).query.map Prod.fst = v.queryParams.map (·.name) ∧
      PlainValues ((ofView v).pathParams ++ (ofView v).query) := by
  obtain ⟨path, query, hpath, hquery, hnamed, h⟩ := exists_namedParameters v
  have names {params : List ParamView} {ids : List String} (hlength : ids.length = params.length) :
      ((params.zip ids).map fun x => (x.1.name, x.2)).map Prod.fst = params.map (·.name) := by
    calc ((params.zip ids).map fun x => (x.1.name, x.2)).map Prod.fst
        = ((params.zip ids).map Prod.fst).map (·.name) := by simp only [List.map_map, Function.comp_def]
      _ = params.map (·.name) := by rw [List.map_fst_zip (Nat.le_of_eq hlength.symm)]
  have plain {params : List ParamView} {ids : List String} (hids : ids ⊆ path ++ query) :
      PlainValues ((params.zip ids).map fun x => (x.1.name, x.2)) := by
    intro e he
    obtain ⟨x, hx, rfl⟩ := List.mem_map.mp he
    exact hnamed.closers_not_mem _ (hids (List.of_mem_zip hx).2)
  rw [pathParams_ofView h, query_ofView h]
  exact ⟨names hpath, names hquery, List.forall_mem_append.mpr
    ⟨plain (List.subset_append_left path query), plain (List.subset_append_right path query)⟩⟩

theorem request_ofView_inj (h : (ofView v).request = (ofView w).request) :
    v.method = w.method ∧ v.path = w.path ∧
      v.pathParams.map (·.name) = w.pathParams.map (·.name) ∧
      v.queryParams.map (·.name) = w.queryParams.map (·.name) := by
  obtain ⟨hvPath, hvQuery, hv⟩ := entries_ofView v
  obtain ⟨hwPath, hwQuery, hw⟩ := entries_ofView w
  obtain ⟨hverb, hpath, hpathParams, hquery⟩ := request_inj hv hw h
  refine ⟨Method.verb_inj.mp hverb, hpath, ?_, ?_⟩
  · rw [← hvPath, hpathParams, hwPath]
  · rw [← hvQuery, hquery, hwQuery]

/-- A request tells the names of all parameters, whatever they are. -/
theorem request_of_inj (h : (of m op).request = (of n op').request) :
    op.method = op'.method ∧ op.path = op'.path ∧
      op.pathParams.map (·.name) = op'.pathParams.map (·.name) ∧
      op.queryParams.map (·.name) = op'.queryParams.map (·.name) := by
  have hnames (m : Model) (ps : List Api.Parameter) :
      (ps.map (ParamView.of m.types annotation)).map (·.name) = ps.map (·.name) := by
    rw [List.map_map]
    rfl
  have hsame := request_ofView_inj h
  simpa only [OperationView.of, hnames] using hsame

end ClientMethod
end Python

/-! ### Requests in TypeScript -/

namespace TypeScript
variable {a b : RequestParts} {m n : Model} {op op' : Api.Operation}

/-- What follows the parameters of the path. -/
def ending (query body : Bool) : String :=
  (if query then ", query" else "") ++ (if body then ", body" else "") ++ " \x7d"

theorem print_of_ne (h : a.pathParams ≠ []) : a.print = "\x7b pathParams: \x7b " ++
    ", ".intercalate (a.pathParams.map fun e => key e.1 ++ ": " ++ e.2) ++ " \x7d" ++ ending a.query a.body := by
  obtain ⟨params, query, body⟩ := a
  have hne : (params.map fun e => key e.1 ++ ": " ++ e.2).isEmpty = false := by simpa using h
  simp only [RequestParts.print, hne]
  cases query <;> cases body <;> simp [braces, ending, String.ext_iff]

/-- Whether there are parameters of the path shows after the opening brace. -/
theorem print_third : a.print.toList[2]? = some 'p' ↔ a.pathParams ≠ [] := by
  constructor
  · intro h hnil
    obtain ⟨params, query, body⟩ := a
    subst hnil
    have hother : ∀ query body, (RequestParts.mk [] query body).print.toList[2]? ≠ some 'p' := by decide
    exact hother query body h
  · intro h
    rw [print_of_ne h]
    simp

theorem print_inj (ha : PlainValues a.pathParams) (hb : PlainValues b.pathParams) (h : a.print = b.print) :
    a = b := by
  have hsame : a.pathParams ≠ [] ↔ b.pathParams ≠ [] := by rw [← print_third, h, print_third]
  obtain ⟨params, query, body⟩ := a
  obtain ⟨params', query', body'⟩ := b
  by_cases hne : params = []
  -- Without parameters a request has one of four texts, each of its own.
  · obtain rfl : params' = [] := by simpa [hne] using hsame
    subst hne
    have all : ∀ query body query' body', (RequestParts.mk [] query body).print =
        (RequestParts.mk [] query' body').print → query = query' ∧ body = body' := by decide
    obtain ⟨rfl, rfl⟩ := all _ _ _ _ h
    rfl
  · rw [print_of_ne hne, print_of_ne (hsame.mp hne)] at h
    have hend (s : List Char) : ∀ c ∈ (' ' :: s).head?, c ∈ closers ∧ c ≠ ',' :=
      forall_mem_head?_cons.mpr (by decide)
    have hentries : [',', ' '].intercalate (params.map fun e => (key e.1 ++ ": " ++ e.2).toList) ++
          ' ' :: '\x7d' :: (ending query body).toList =
        [',', ' '].intercalate (params'.map fun e => (key e.1 ++ ": " ++ e.2).toList) ++
          ' ' :: '\x7d' :: (ending query' body').toList := by
      simpa [String.ext_iff, String.toList_intercalate, Function.comp_def] using h
    obtain ⟨rfl, hrest⟩ := showsEnds_key.entry.list (by decide) ha hb (hend _) (hend _) hentries
    have all : ∀ query body query' body', (ending query body).toList = (ending query' body').toList →
        query = query' ∧ body = body' := by decide
    simp only [List.cons.injEq, true_and] at hrest
    obtain ⟨rfl, rfl⟩ := all _ _ _ _ hrest
    rfl

namespace ClientMethod

theorem plainValues_of (m : Model) (op : Api.Operation) : PlainValues (of m op).parts.pathParams := by
  rw [pathParams_of]
  intro e he c hc
  obtain ⟨p, -, rfl⟩ := List.mem_map.mp he
  have hident := isIdentifier_iff.mp (isIdentifier_pathIdent p.name)
  dsimp only at hc
  exact mt (mark_of_mem_closers c) (hident.not_mark c hc)

theorem request_eq (c : ClientMethod) :
    c.request = quoted c.verb ++ ", " ++ quoted c.path ++ ", " ++ c.parts.print ++ ", options" := rfl

/-- A request tells the names of the parameters in the path, whatever they are. -/
theorem request_of_inj (h : (of m op).request = (of n op').request) :
    op.method = op'.method ∧ op.path = op'.path ∧
      op.pathParams.map (·.name) = op'.pathParams.map (·.name) := by
  have hparts := congrArg String.toList h
  simp only [request_eq, String.toList_append, List.append_assoc] at hparts
  obtain ⟨hverb, hpath, hparts⟩ := opening_inj hparts
  have hprint := String.toList_inj.mp (List.append_cancel_right (List.append_cancel_left hparts))
  have hnames := congrArg (fun r : RequestParts => r.pathParams.map Prod.fst)
    (print_inj (plainValues_of m op) (plainValues_of n op') hprint)
  refine ⟨Method.verb_inj.mp hverb, hpath, ?_⟩
  simpa only [pathParams_of, List.map_map, Function.comp_def] using hnames

end ClientMethod
end TypeScript

/-! ### Literals, keys and requests -/

/-- Each language reads a literal as the text that it is written for, up to its own quote, and a key is an
identifier that is the text, or its literal. So lists of literals or keys tell their texts, and requests tell
the names that are in them. -/
theorem literals_read_back (names : String → Option Char) :
    (∀ s : String, (Python.literalRules names).IsLiteral s.toList (quoted s).toList ∧
      TypeScript.literalRules.IsLiteral s.toList (quoted s).toList) ∧
    Function.Injective (Python.literalRules names).text ∧ Function.Injective TypeScript.literalRules.text ∧
    (∀ s, TypeScript.IsIdentifier s ∧ TypeScript.key s = s ∨
      ¬TypeScript.IsIdentifier s ∧ TypeScript.key s = quoted s) ∧
    Function.Injective TypeScript.key ∧
    (Function.Injective fun vs : List String => ", ".intercalate (vs.map quoted)) ∧
    (Function.Injective fun vs : List String => ", ".intercalate (vs.map TypeScript.key)) ∧
    ∀ (m n : Model) (a b : Api.Operation),
      ((Python.ClientMethod.of m a).request = (Python.ClientMethod.of n b).request →
        a.method = b.method ∧ a.path = b.path ∧ a.pathParams.map (·.name) = b.pathParams.map (·.name) ∧
          a.queryParams.map (·.name) = b.queryParams.map (·.name)) ∧
      ((TypeScript.ClientMethod.of m a).request = (TypeScript.ClientMethod.of n b).request →
        a.method = b.method ∧ a.path = b.path ∧ a.pathParams.map (·.name) = b.pathParams.map (·.name)) :=
  ⟨fun s => ⟨(Python.undoes_literalRules names).isLiteral s, TypeScript.undoes_literalRules.isLiteral s⟩,
    Python.text_injective names, TypeScript.text_injective, TypeScript.key_cases,
    fun _ _ => TypeScript.key_inj.mp, commas_injective showsEnds_quoted,
    commas_injective TypeScript.showsEnds_key,
    fun _ _ _ _ => ⟨Python.ClientMethod.request_of_inj, TypeScript.ClientMethod.request_of_inj⟩⟩

/-- An operation with parameters in its path. -/
def routedBy (params : List String) : Api.Operation where
  id := "get"
  extractedId := "get"
  method := .get
  path := "/"
  summary := none
  description := none
  deprecated := false
  pathParams := params.map fun name => ⟨name, true, .unknown, none⟩
  queryParams := []
  body := none
  response := none
  stream := none

/-- One text imitates the end of a literal, a separator and an escape, and is not taken for two. -/
theorem literals_read_back_imitating :
    let m : Model := ⟨⟨"Imitating", none, "1"⟩, none, [], [], [], .ofSchemas .typed []⟩
    let one := "a\", \"b\\u0022\n\u2028"
    let two := ["a", "b\\u0022\n\u2028"]
    TypeScript.literalRules.read? ((quoted one).toList ++ [';']) =
        some (TypeScript.literalRules.text one.toList, [';']) ∧
      ", ".intercalate ([one].map quoted) ≠ ", ".intercalate (two.map quoted) ∧
      (Python.ClientMethod.of m (routedBy [one])).request ≠ (Python.ClientMethod.of m (routedBy two)).request ∧
      (TypeScript.ClientMethod.of m (routedBy [one])).request ≠
        (TypeScript.ClientMethod.of m (routedBy two)).request := by
  intro m one two
  obtain ⟨hliteral, -, -, -, -, hlist, -, hrequest⟩ := literals_read_back fun _ => none
  refine ⟨(hliteral one).2.read [';'], fun h => ?_, fun h => ?_, fun h => ?_⟩
  · exact absurd (hlist h) (by decide)
  · exact absurd ((hrequest m m _ _).1 h).2.2.1 (by decide)
  · exact absurd ((hrequest m m _ _).2 h).2.2 (by decide)

end ClientGen
