import ClientGen.Proofs.Entries
import ClientGen.Proofs.Identifier
import ClientGen.Proofs.Json.Literal
import ClientGen.Python.Method

/-! The arguments of a method. Their names are apart, and what the method passes on under the name of a
parameter in requests is the argument that it takes for it. -/
namespace ClientGen.Python
variable {used names ids path query : List String} {name id s word : String} {v : OperationView}
  {params : List ParamView}

/-! ### Names that are reserved -/

def reserved : List String := taken ++ keywords

/-- No reserved name has an underscore at an end, or a digit at its end. -/
theorem ends_of_reserved (h : word ∈ reserved) : word.toList.head? ≠ some '_' ∧
    word.toList.getLast?.all fun c => c ≠ '_' && !c.isDigit := by
  have all : ∀ word ∈ reserved, word.toList.head? ≠ some '_' ∧
      word.toList.getLast?.all fun c => c ≠ '_' && !c.isDigit := by decide
  exact all word h

theorem append_toString_not_mem_reserved (s : String) (n : Nat) : s ++ toString n ∉ reserved := by
  intro h
  have hne : (toString n).toList ≠ [] := fun hnil => Nat.repr_ne_empty (String.toList_eq_nil_iff.mp hnil)
  have hdigit : ∀ c ∈ (toString n).toList, c.isDigit := by
    intro c hc
    rw [Nat.toString_eq_repr, Nat.toList_repr] at hc
    exact Nat.isDigit_of_mem_toDigits (by decide) (by decide) hc
  have hlast := (ends_of_reserved h).2
  rw [String.toList_append, List.getLast?_append_of_ne_nil _ hne, List.getLast?_eq_some_getLast hne] at hlast
  rw [Option.all_some, hdigit _ (List.getLast_mem hne)] at hlast
  simp at hlast

/-- Keywords and names of the code around it are moved away. -/
theorem ident_not_mem_reserved (name : String) : ident name ∉ reserved := by
  have front (s : String) : "_" ++ s ∉ reserved := fun h => (ends_of_reserved h).1 (by simp)
  have back (s : String) : s ++ "_" ∉ reserved := fun h => by simpa using (ends_of_reserved h).2
  rw [ident]
  split
  · exact front ""
  · split
    · exact front _
    · split
      · exact back _
      · rename_i hfree
        simpa [reserved, or_comm] using hfree

/-! ### The search for a name -/

/-- What is tried for the name of an argument, in this order. -/
def candidate (name : String) : Nat → String
  | 0 => ident name
  | k + 1 => ident name ++ "_" ++ toString (k + 2)

/-- The first candidate that is not used. -/
def IsFirstFree (used : List String) (name id : String) : Prop :=
  ∃ k, id = candidate name k ∧ id ∉ used ∧ ∀ j < k, candidate name j ∈ used

/-- Names that are found one after the other, each counted as used from then on. -/
inductive Named : List String → List String → List String → Prop
  | nil {used : List String} : Named used [] []
  | cons {used names ids : List String} {name id : String} : IsFirstFree used name id →
    Named (id :: used) names ids → Named used (name :: names) (id :: ids)

theorem candidate_not_mem_reserved (name : String) (k : Nat) : candidate name k ∉ reserved := by
  cases k with
  | zero => exact ident_not_mem_reserved name
  | succ k => exact append_toString_not_mem_reserved _ (k + 2)

theorem isFirstFree_search (used : List String) (name : String) : IsFirstFree used name
    (if ident name ∈ used then Identifier.freshFrom used (ident name ++ "_") used.length 2
      else ident name) := by
  split
  · rename_i hbase
    obtain ⟨m, he, hm, -, hall, -⟩ := Identifier.freshFrom_spec used (ident name ++ "_") used.length 2
    obtain ⟨k, rfl⟩ : ∃ k, m = k + 2 := ⟨m - 2, by omega⟩
    refine ⟨k + 1, he, Identifier.freshFrom_not_mem used _, fun j hj => ?_⟩
    cases j with
    | zero => exact hbase
    | succ j => exact hall (j + 2) (by omega) (by omega)
  · rename_i hfree
    exact ⟨0, rfl, hfree, fun j hj => absurd hj (Nat.not_lt_zero j)⟩

theorem named_argumentNames (used names : List String) : Named used names (argumentNames used names) := by
  induction names generalizing used with
  | nil => exact .nil
  | cons name rest ih => exact .cons (isFirstFree_search used name) (ih _)

namespace Named

theorem length_eq (h : Named used names ids) : ids.length = names.length := by
  induction h with
  | nil => rfl
  | cons _ _ ih => simp [ih]

theorem apart (h : Named used names ids) : Identifier.Apart used ids := by
  induction h with
  | nil => exact Identifier.apart_nil _
  | cons hid _ ih =>
    obtain ⟨_, -, hfree, -⟩ := hid
    exact ih.cons_of_not_mem hfree fun a => by rw [List.mem_cons, or_comm]

theorem free (h : Named used names ids) :
    ∀ id ∈ ids, id ∉ ["self", "body", "response"] ∧ id ∉ keywords := by
  induction h with
  | nil => exact nofun
  | @cons _ _ _ name _ hid _ ih =>
    obtain ⟨k, rfl, -, -⟩ := hid
    have hreserved := candidate_not_mem_reserved name k
    have hsub : ["self", "body", "response"] ⊆ taken := by decide
    refine List.forall_mem_cons.mpr ⟨⟨fun hmem => ?_, fun hmem => ?_⟩, ih⟩
    · exact hreserved (List.mem_append_left _ (hsub hmem))
    · exact hreserved (List.mem_append_right _ hmem)

end Named

/-! ### The signature and the call -/

/-- The arguments before the star: one for each path parameter, and the body if it is required. -/
def positionalTexts (v : OperationView) (path : List String) : List String :=
  (v.pathParams.zip path).map (fun x => x.2 ++ ": " ++ x.1.type) ++
    (v.body.toList.filter (·.required)).map fun b => "body: " ++ b.type

/-- The arguments after the star: those of the query, first what is required, and the body if it is not. -/
def keywordTexts (v : OperationView) (query : List String) : List String :=
  let required := (v.queryParams.zip query).filter (·.1.required)
  let optional := (v.queryParams.zip query).filter (!·.1.required)
  required.map (fun x => x.2 ++ ": " ++ x.1.type) ++
    optional.map (fun x => x.2 ++ ": " ++ x.1.type ++ " | None = None") ++
    (v.body.toList.filter (!·.required)).map fun b => "body: " ++ b.type ++ " | None = None"

/-- What stands for parameters in a dict: the literals of their names, and their arguments. -/
def literals (params : List ParamView) (ids : List String) : List (String × String) :=
  (params.zip ids).map fun x => (quoted x.1.name, x.2)

def dict (entries : List (String × String)) : String :=
  "\x7b" ++ ", ".intercalate (entries.map fun e => e.1 ++ ": " ++ e.2) ++ "\x7d"

def ClientMethod.idents (c : ClientMethod) : List String := (c.positional ++ c.keyword).map (·.ident)

/-- How a method takes the arguments of an operation and passes them on, where those for its parameters are
named `path` and `query`. -/
structure ClientMethod.Passes (c : ClientMethod) (v : OperationView) (path query : List String) : Prop where
  path_length : path.length = v.pathParams.length
  query_length : query.length = v.queryParams.length
  named : Named [] ((v.pathParams ++ v.queryParams).map (·.name)) (path ++ query)
  nodup : (path ++ query).Nodup
  free : ∀ id ∈ path ++ query, id ∉ ["self", "body", "response"] ∧ id ∉ keywords
  signature : c.signature = ", ".intercalate ("self" :: positionalTexts v path ++
    if keywordTexts v query = [] then [] else "*" :: keywordTexts v query)
  printed : (c.positional ++ c.keyword).map Argument.print = positionalTexts v path ++ keywordTexts v query
  /-- Every argument is taken once. -/
  once : c.idents.Perm (path ++ query ++ v.body.toList.map fun _ => "body")
  apart : ("self" :: c.idents).Nodup
  request : c.request = quoted v.method.verb ++ ", " ++ quoted v.path ++
    (if v.pathParams = [] then "" else ", path_params=" ++ dict (literals v.pathParams path)) ++
    (if v.queryParams = [] then "" else ", query=" ++ dict (literals v.queryParams query)) ++
    (if "body" ∈ c.idents then ", body=body" else "")
  /-- In a dict, a later entry replaces an earlier one with the same key. -/
  path_bound : ∀ x ∈ v.pathParams.zip path,
    Entries.get? (Entries.ofList (literals v.pathParams path)) (quoted x.1.name) = some x.2
  query_bound : ∀ x ∈ v.queryParams.zip query,
    Entries.get? (Entries.ofList (literals v.queryParams query)) (quoted x.1.name) = some x.2

theorem get?_literals (hlength : ids.length = params.length) (hd : (params.map (·.name)).Nodup) :
    ∀ x ∈ params.zip ids,
      Entries.get? (Entries.ofList (literals params ids)) (quoted x.1.name) = some x.2 := by
  have hnames : ((params.zip ids).map (·.1.name)).Nodup := by
    have hfst : (params.zip ids).map Prod.fst = params := List.map_fst_zip (Nat.le_of_eq hlength.symm)
    rw [← hfst, List.map_map] at hd
    exact hd
  intro x hx
  have hapart : ∀ y ∈ params.zip ids, quoted y.1.name = quoted x.1.name → y = x :=
    fun y hy he => List.inj_on_of_nodup_map hnames hy hx (Json.quoted_inj.mp he)
  exact Entries.get?_ofList_map _ _ hapart hx

theorem exists_namedParameters (v : OperationView) : ∃ path query : List String,
    path.length = v.pathParams.length ∧ query.length = v.queryParams.length ∧
      Named [] ((v.pathParams ++ v.queryParams).map (·.name)) (path ++ query) ∧
      namedParameters v = (v.pathParams.zip path, v.queryParams.zip query) := by
  have hnamed := named_argumentNames [] ((v.pathParams ++ v.queryParams).map (·.name))
  generalize hids : argumentNames [] ((v.pathParams ++ v.queryParams).map (·.name)) = ids at hnamed
  have hlength : ids.length = v.pathParams.length + v.queryParams.length := by simpa using hnamed.length_eq
  obtain ⟨path, query, rfl, hpath⟩ :
      ∃ path query, ids = path ++ query ∧ path.length = v.pathParams.length :=
    ⟨_, _, (List.take_append_drop v.pathParams.length ids).symm, by simp [hlength]⟩
  have hquery : query.length = v.queryParams.length := by
    rw [List.length_append] at hlength
    omega
  refine ⟨path, query, hpath, hquery, hnamed, ?_⟩
  have hzip : (v.pathParams.zip path).length = v.pathParams.length := by simp [hpath]
  simp only [namedParameters, hids]
  rw [List.zip_append hpath.symm, List.take_left' hzip, List.drop_left' hzip]

/-- Arguments that all end alike, printed. -/
theorem print_filter {α : Type} {p : Argument → Bool} {ending : String}
    (hp : ∀ a, p a → (if a.optional then " | None = None" else "") = ending) (f : α → Argument)
    (xs : List α) : ((xs.map f).filter p).map Argument.print =
      (xs.filter fun x => p (f x)).map fun x => (f x).ident ++ ": " ++ (f x).type ++ ending := by
  rw [List.filter_map, List.map_map]
  refine List.map_congr_left fun x hx => ?_
  obtain ⟨-, hx⟩ := List.mem_filter.mp hx
  rw [Function.comp_apply, Argument.print, hp (f x) hx]

theorem ending_required (a : Argument) (h : !a.optional) :
    (if a.optional then " | None = None" else "") = "" := if_neg (by simpa using h)

theorem ending_optional (a : Argument) (h : a.optional) :
    (if a.optional then " | None = None" else "") = " | None = None" := if_pos h

theorem isEmpty_iff {f : ParamView × String → String × String} (hlength : ids.length = params.length) :
    ((params.zip ids).map f).isEmpty ↔ params = [] := by
  rw [List.isEmpty_iff, List.map_eq_nil_iff, List.zip_eq_nil_iff, or_iff_left_iff_imp]
  rintro rfl
  exact List.length_eq_zero_iff.mp hlength.symm

theorem mapping_eq_dict : ClientMethod.mapping ((params.zip ids).map fun x => (x.1.name, x.2)) =
    dict (literals params ids) := by
  simp only [ClientMethod.mapping, dict, literals, List.map_map]
  rfl

namespace ClientMethod

def pathArgument (x : ParamView × String) : Argument := ⟨x.2, x.1.type, false⟩

def queryArgument (x : ParamView × String) : Argument := ⟨x.2, x.1.type, !x.1.required⟩

def bodyArgument (b : BodyView) : Argument := ⟨"body", b.type, !b.required⟩

section
variable (h : namedParameters v = (v.pathParams.zip path, v.queryParams.zip query))
include h

theorem positional_ofView : (ofView v).positional = (v.pathParams.zip path).map pathArgument ++
    (v.body.toList.map bodyArgument).filter (!·.optional) := by
  simp only [ofView, h, Option.toList_map]
  rfl

theorem keyword_ofView : (ofView v).keyword =
    ((v.queryParams.zip query).map queryArgument).filter (!·.optional) ++
      ((v.queryParams.zip query).map queryArgument ++
        v.body.toList.map bodyArgument).filter (·.optional) := by
  simp only [ofView, h, Option.toList_map]
  rfl

theorem pathParams_ofView :
    (ofView v).pathParams = (v.pathParams.zip path).map fun x => (x.1.name, x.2) := by
  simp only [ofView, h]

theorem query_ofView : (ofView v).query = (v.queryParams.zip query).map fun x => (x.1.name, x.2) := by
  simp only [ofView, h]

theorem print_positional_ofView : (ofView v).positional.map Argument.print = positionalTexts v path := by
  rw [positional_ofView h, List.map_append, print_filter ending_required, List.map_map]
  simp [positionalTexts, Function.comp_def, Argument.print, pathArgument, bodyArgument]

theorem print_keyword_ofView : (ofView v).keyword.map Argument.print = keywordTexts v query := by
  rw [keyword_ofView h, List.filter_append, List.map_append, List.map_append,
    print_filter ending_required, print_filter ending_optional, print_filter ending_optional]
  simp [keywordTexts, queryArgument, bodyArgument]

theorem signature_ofView : (ofView v).signature = ", ".intercalate ("self" :: positionalTexts v path ++
    if keywordTexts v query = [] then [] else "*" :: keywordTexts v query) := by
  have hnone : (ofView v).keyword.isEmpty ↔ keywordTexts v query = [] := by
    rw [← print_keyword_ofView h, List.isEmpty_iff, List.map_eq_nil_iff]
  simp only [ClientMethod.signature, hnone, print_positional_ofView h, print_keyword_ofView h]

variable (hpath : path.length = v.pathParams.length) (hquery : query.length = v.queryParams.length)
include hpath hquery

theorem request_ofView : (ofView v).request = quoted v.method.verb ++ ", " ++ quoted v.path ++
    (if v.pathParams = [] then "" else ", path_params=" ++ dict (literals v.pathParams path)) ++
    (if v.queryParams = [] then "" else ", query=" ++ dict (literals v.queryParams query)) ++
    (if v.body.isSome then ", body=body" else "") := by
  have hview : (ofView v).verb = v.method.verb ∧ (ofView v).path = v.path ∧
      (ofView v).body = v.body.isSome := by simp only [ofView, and_self]
  rw [ClientMethod.request, hview.1, hview.2.1, hview.2.2, pathParams_ofView h, query_ofView h]
  simp only [isEmpty_iff hpath, isEmpty_iff hquery, mapping_eq_dict]

/-- The arguments are taken in another order than they are named in, as whatever is required goes first. -/
theorem idents_ofView : (ofView v).idents.Perm (path ++ query ++ v.body.toList.map fun _ => "body") := by
  have hperm : ((ofView v).positional ++ (ofView v).keyword).Perm ((v.pathParams.zip path).map pathArgument ++
      (v.queryParams.zip query).map queryArgument ++ v.body.toList.map bodyArgument) := by
    rw [positional_ofView h, keyword_ofView h]
    generalize (v.queryParams.zip query).map queryArgument = named
    generalize v.body.toList.map bodyArgument = body
    refine List.perm_iff_count.mpr fun a => ?_
    have hnamed := (List.filter_append_perm (·.optional) named).count_eq a
    have hbody := (List.filter_append_perm (·.optional) body).count_eq a
    simp only [List.count_append, List.filter_append] at hnamed hbody ⊢
    omega
  have hfst : (v.pathParams.zip path).map Prod.snd = path := List.map_snd_zip (Nat.le_of_eq hpath)
  have hsnd : (v.queryParams.zip query).map Prod.snd = query := List.map_snd_zip (Nat.le_of_eq hquery)
  refine (hperm.map _).trans (.of_eq ?_)
  conv_rhs => rw [← hfst, ← hsnd]
  simp only [List.map_append, List.map_map]
  rfl

end

/-- Where parameters of one place have distinct names, each reaches the server under its own name. -/
theorem ofView_passes (hpath : (v.pathParams.map (·.name)).Nodup)
    (hquery : (v.queryParams.map (·.name)).Nodup) :
    (ofView v).Passes v ((ofView v).pathParams.map Prod.snd) ((ofView v).query.map Prod.snd) := by
  obtain ⟨path, query, hp, hq, hnamed, h⟩ := exists_namedParameters v
  obtain ⟨hpathIds, hqueryIds⟩ :
      (ofView v).pathParams.map Prod.snd = path ∧ (ofView v).query.map Prod.snd = query := by
    rw [pathParams_ofView h, query_ofView h, List.map_map, List.map_map]
    exact ⟨List.map_snd_zip (Nat.le_of_eq hp), List.map_snd_zip (Nat.le_of_eq hq)⟩
  rw [hpathIds, hqueryIds]
  have hfree := hnamed.free
  have hself : "self" ∉ path ++ query := fun hmem => (hfree _ hmem).1 (by decide)
  have hbody : "body" ∉ path ++ query := fun hmem => (hfree _ hmem).1 (by decide)
  have honce := idents_ofView h hp hq
  have hdeclared : "body" ∈ (ofView v).idents ↔ v.body.isSome := by
    rw [honce.mem_iff]
    cases v.body <;> simp_all
  have hprinted : ((ofView v).positional ++ (ofView v).keyword).map Argument.print =
      positionalTexts v path ++ keywordTexts v query := by
    rw [List.map_append, print_positional_ofView h, print_keyword_ofView h]
  have hnodup := hnamed.apart.1
  have hapart : ("self" :: (path ++ query ++ v.body.toList.map fun _ => "body")).Nodup := by
    refine List.nodup_cons.mpr ⟨fun hmem => ?_, List.Nodup.append hnodup ?_ fun id hid hmem => ?_⟩
    · rcases List.mem_append.mp hmem with hmem | hmem
      · exact hself hmem
      · simp at hmem
    · cases v.body <;> simp
    · obtain ⟨_, -, rfl⟩ := List.mem_map.mp hmem
      exact hbody hid
  refine ⟨hp, hq, hnamed, hnodup, hfree, signature_ofView h, hprinted, honce,
    (honce.cons "self").nodup_iff.mpr hapart, ?_, get?_literals hp hpath, get?_literals hq hquery⟩
  simp only [request_ofView h hp hq, hdeclared]

/-- A name that is reserved, names that are alike in snake case, and one that looks like the name for the
second of them. -/
def crowdedView : OperationView :=
  let param (name : String) (required : Bool) : ParamView := ⟨name, Name.ofText name, "int", required, none⟩
  { name := Name.ofText "list", extractedId := "list", method := .get, path := "/pets"
    pathParams := [param "self" true, param "id" true]
    queryParams :=
      [param "page_size" false, param "pageSize" true, param "page_size_2" false, param "id" false]
    body := some ⟨"Pet", false⟩, response := .empty, stream := none, summary := none, description := none
    deprecated := false, namedTypes := [] }

theorem ofView_passes_crowdedView :
    (crowdedView.pathParams.map (·.name)).Nodup ∧ (crowdedView.queryParams.map (·.name)).Nodup ∧
      (ofView crowdedView).Passes crowdedView ["self_", "id"]
        ["page_size", "page_size_2", "page_size_2_2", "id_2"] ∧
      (ofView crowdedView).signature = "self, self_: int, id: int, *, page_size_2: int, " ++
        "page_size: int | None = None, page_size_2_2: int | None = None, id_2: int | None = None, " ++
        "body: Pet | None = None" := by
  have hpath : (crowdedView.pathParams.map (·.name)).Nodup := by decide
  have hquery : (crowdedView.queryParams.map (·.name)).Nodup := by decide
  exact ⟨hpath, hquery, ofView_passes hpath hquery, by decide +kernel⟩

end ClientMethod
end ClientGen.Python
