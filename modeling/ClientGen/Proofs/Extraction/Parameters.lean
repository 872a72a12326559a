import ClientGen.Api.Extract
import ClientGen.Proofs.Entries
import ClientGen.Proofs.Marks

/-! The parameters of an operation. Those of the path are the placeholders of its template, those of the query
are the names that are declared there, and each of them is what the last declaration of its name says. -/
namespace ClientGen

/-! ### Placeholders -/

namespace Route
variable {path : String} {s : List Char} {names names' : List (List Char)}

/-- How a template is scanned: an opening brace goes with the next closing brace after it, and the scan goes on
behind that one, until an opening brace has none. -/
inductive Scans : List Char → List (List Char) → Prop
  | plain {s : List Char} : '\x7b' ∉ s → Scans s []
  | unclosed {front rest : List Char} : '\x7b' ∉ front → '\x7d' ∉ rest → Scans (front ++ '\x7b' :: rest) []
  | placeholder {front name rest : List Char} {names : List (List Char)} : '\x7b' ∉ front →
      '\x7d' ∉ name → Scans rest names → Scans (front ++ '\x7b' :: (name ++ '\x7d' :: rest)) (name :: names)

/-- A template is scanned in one way only. -/
theorem Scans.unique (h : Scans s names) (h' : Scans s names') : names = names' := by
  have opening {front rest : List Char} : '\x7b' ∈ front ++ '\x7b' :: rest := by simp
  have closing {name rest : List Char} : '\x7d' ∈ name ++ '\x7d' :: rest := by simp
  induction h generalizing names' with
  | plain hs =>
    cases h' with
    | plain => rfl
    | unclosed => rfl
    | placeholder => exact (hs opening).elim
  | unclosed hfront hrest =>
    generalize ht : _ ++ '\x7b' :: _ = t at h'
    cases h' with
    | plain ht' => exact (ht' (ht ▸ opening)).elim
    | unclosed => rfl
    | placeholder hfront' =>
      obtain ⟨-, rfl⟩ := append_cons_inj hfront hfront' ht
      exact (hrest closing).elim
  | placeholder hfront hname _ ih =>
    generalize ht : _ ++ '\x7b' :: _ = t at h'
    cases h' with
    | plain ht' => exact (ht' (ht ▸ opening)).elim
    | unclosed hfront' hrest' =>
      obtain ⟨-, rfl⟩ := append_cons_inj hfront hfront' ht
      exact (hrest' closing).elim
    | placeholder hfront' hname' h' =>
      obtain ⟨-, ht⟩ := append_cons_inj hfront hfront' ht
      obtain ⟨rfl, rfl⟩ := append_cons_inj hname hname' ht
      rw [ih h']

/-- What is read of a template while no brace is open, or since one was opened. -/
def readSoFar (front : List Char) : Option (List Char) → List Char
  | none => front
  | some name => front ++ '\x7b' :: name.reverse

theorem scans_placeholdersFrom (open? : Option (List Char)) (s front : List Char)
    (hfront : '\x7b' ∉ front) (hopen : ∀ name ∈ open?, '\x7d' ∉ name) :
    Scans (readSoFar front open? ++ s) (placeholdersFrom open? s) := by
  fun_induction placeholdersFrom open? s generalizing front with
  | case1 open? =>
    rw [List.append_nil]
    cases open? with
    | none => exact .plain hfront
    | some name => exact .unclosed hfront (by simpa using hopen name rfl)
  | case2 c s ih =>
    by_cases hc : c = '\x7b'
    · subst hc
      simpa [readSoFar] using ih front hfront (by simp)
    · have hread := ih (front ++ [c]) (by simpa [hfront] using Ne.symm hc) (by simp [hc])
      simpa [readSoFar, hc] using hread
  | case3 name s ih =>
    have hrest := ih [] List.not_mem_nil nofun
    have hname : '\x7d' ∉ name.reverse := by simpa using hopen name rfl
    simpa [readSoFar] using Scans.placeholder hfront hname hrest
  | case4 name c s hc ih =>
    have hname : '\x7d' ∉ c :: name := by simpa [Ne.symm hc] using hopen name rfl
    simpa [readSoFar] using ih front hfront (by simpa using hname)

theorem scans_iff : Scans s names ↔ placeholdersFrom none s = names := by
  have hscans : Scans s (placeholdersFrom none s) :=
    scans_placeholdersFrom none s [] List.not_mem_nil nofun
  exact ⟨fun h => hscans.unique h, fun h => h ▸ hscans⟩

/-- Each name counts where it appears first, and an empty one does not count. -/
theorem placeholders_eq (h : Scans path.toList names) :
    placeholders path = ((names.filter (· ≠ [])).map String.ofList).eraseDups := by
  rw [placeholders, scans_iff.mp h, ← List.foldl_map, Entries.foldl_addNew_nil]
  congr 2
  exact List.filter_congr fun name _ => by cases name <;> rfl

theorem nodup_placeholders (path : String) : (placeholders path).Nodup := by
  rw [placeholders, ← List.foldl_map]
  exact Entries.nodup_foldl_addNew _

end Route

/-! ### Declarations -/

namespace Extract
open Document (Location PathItem)
variable {table : SchemaTable} {shared own : List (RefOr Document.Parameter)} {ps : List Document.Parameter}
  {d : Document.Parameter} {location : Location} {name path : String}

theorem names_pathParameters {declared : Entries (Location × String) Document.Parameter} (path : String) :
    (pathParameters table declared path).map (·.name) = Route.placeholders path := by
  rw [pathParameters, List.map_map]
  refine (List.map_congr_left fun name _ => ?_).trans (List.map_id _)
  rw [Function.comp_apply]
  split <;> rfl

/-- Of what is written in place, the last declaration of its name in a location. -/
def LastDeclared (ps : List Document.Parameter) (location : Location) (d : Document.Parameter) : Prop :=
  d.location = location ∧ ∃ before after, ps = before ++ d :: after ∧
    ∀ q ∈ after, q.location = location → q.name ≠ d.name

/-- The declarations that are written in place, those of the operation after those of the path. -/
def declarations (shared own : List (RefOr Document.Parameter)) : List Document.Parameter :=
  (shared ++ own).filterMap RefOr.inline?

/-- The place of a declaration among the others. -/
def placeOf (p : Document.Parameter) : Location × String := (p.location, p.name)

theorem declaredParameters_eq (shared own : List (RefOr Document.Parameter)) :
    declaredParameters shared own =
      Entries.ofList ((declarations shared own).map fun p => (placeOf p, p)) := rfl

theorem keys_placed (ps : List Document.Parameter) :
    Entries.keys (ps.map fun p => (placeOf p, p)) = ps.map placeOf := by
  rw [Entries.keys, List.map_map]
  rfl

theorem placeOf_of_mem {e : (Location × String) × Document.Parameter}
    (h : e ∈ declaredParameters shared own) : e.1 = placeOf e.2 := by
  obtain ⟨p, -, rfl⟩ := List.mem_map.mp (Entries.mem_ofList e h)
  rfl

theorem get?_declaredParameters : Entries.get? (declaredParameters shared own) (location, name) = some d ↔
    d.name = name ∧ LastDeclared (declarations shared own) location d := by
  have last {after : List Document.Parameter} : (location, d.name) ∉ after.map placeOf ↔
      ∀ q ∈ after, q.location = location → q.name ≠ d.name := by
    simp [placeOf]
  rw [declaredParameters_eq, Entries.get?_ofList_eq_some_iff]
  constructor
  · rintro ⟨before, after, hsplit, hlast⟩
    obtain ⟨front, back, hps, rfl, hback⟩ := List.map_eq_append_iff.mp hsplit
    obtain ⟨p, rest, rfl, hp, rfl⟩ := List.map_eq_cons_iff.mp hback
    cases hp
    rw [keys_placed] at hlast
    exact ⟨rfl, rfl, front, rest, hps, last.mp hlast⟩
  · rintro ⟨rfl, rfl, before, after, hps, hlast⟩
    rw [hps, List.map_append, List.map_cons]
    exact ⟨_, _, rfl, by rw [keys_placed]; exact last.mpr hlast⟩

theorem get?_declaredParameters_eq_none : Entries.get? (declaredParameters shared own) (location, name) = none ↔
    ∀ d ∈ declarations shared own, d.location = location → d.name ≠ name := by
  rw [declaredParameters_eq, Entries.get?_ofList_eq_none_iff, keys_placed]
  simp [placeOf]

/-- The name of a place in the query. -/
def queryName? (place : Location × String) : Option String :=
  if place.1 = .query then some place.2 else none

theorem names_query (ps : List Document.Parameter) :
    (ps.filter (·.location = .query)).map (·.name) = ps.filterMap fun p => queryName? (placeOf p) := by
  induction ps with
  | nil => rfl
  | cons p ps ih =>
    rw [List.filterMap_cons, ← ih]
    by_cases hp : p.location = .query <;> simp [queryName?, placeOf, hp]

/-- Names in the query are in order of first declaration. -/
theorem names_queryParameters (table : SchemaTable) (shared own : List (RefOr Document.Parameter)) :
    (queryParameters table (declaredParameters shared own)).map (·.name) =
      (((declarations shared own).filter (·.location = .query)).map (·.name)).eraseDups := by
  have hone : ∀ x y b, queryName? x = some b → queryName? y = some b → x = y := by
    rintro ⟨l, n⟩ ⟨l', n'⟩ b hx hy
    simp only [queryName?, Option.ite_none_right_eq_some, Option.some.injEq] at hx hy
    obtain ⟨rfl, rfl⟩ := hx
    obtain ⟨rfl, rfl⟩ := hy
    rfl
  calc (queryParameters table (declaredParameters shared own)).map (·.name)
      = (declaredParameters shared own).values.filterMap fun p => queryName? (placeOf p) := by
        rw [queryParameters, List.map_map]
        exact names_query _
    _ = (Entries.keys (declaredParameters shared own)).filterMap queryName? := by
        rw [Entries.values, Entries.keys, List.filterMap_map, List.filterMap_map]
        exact List.filterMap_congr fun e he => by rw [Function.comp_apply, Function.comp_apply, placeOf_of_mem he]
    _ = (((declarations shared own).map placeOf).filterMap queryName?).eraseDups := by
        rw [declaredParameters_eq, Entries.keys_ofList, ← Entries.eraseDups_filterMap hone, keys_placed]
    _ = (((declarations shared own).filter (·.location = .query)).map (·.name)).eraseDups := by
        rw [names_query, List.filterMap_map]
        rfl

/-- How the parameters of an operation come from its template and from what is declared. -/
structure MergesParameters (table : SchemaTable) (path : String) (ps : List Document.Parameter)
    (op : Api.Operation) : Prop where
  /-- The template is scanned to its end. -/
  scanned : ∃ names, Route.Scans path.toList names
  pathNames : ∀ names, Route.Scans path.toList names →
    op.pathParams.map (·.name) = ((names.filter (· ≠ [])).map String.ofList).eraseDups
  path : ∀ p ∈ op.pathParams,
    (∃ d, LastDeclared ps .path d ∧
      p = ⟨d.name, true, d.schema.elim .plainString (Schema.shape table), d.description⟩) ∨
    (∀ d ∈ ps, d.location = .path → d.name ≠ p.name) ∧ p = ⟨p.name, true, .plainString, none⟩
  /-- Names are distinct in the path and in the query, where they are in order of first declaration. -/
  distinct : (op.pathParams.map (·.name)).Nodup ∧ (op.queryParams.map (·.name)).Nodup
  queryNames : op.queryParams.map (·.name) = ((ps.filter (·.location = .query)).map (·.name)).eraseDups
  query : ∀ p ∈ op.queryParams, ∃ d, LastDeclared ps .query d ∧
    p = ⟨d.name, d.required, d.schema.elim .unknown (Schema.shape table), d.description⟩

theorem mergesParameters_operationRecord (table : SchemaTable) (path : String) (item : PathItem) (id : String)
    (method : Method) (op : Document.Operation) :
    MergesParameters table path (declarations item.parameters op.parameters)
      (operationRecord table path item id method op) where
  scanned := ⟨_, Route.scans_iff.mpr rfl⟩
  pathNames names h := by
    rw [← Route.placeholders_eq h]
    exact names_pathParameters path
  path p hp := by
    obtain ⟨name, -, rfl⟩ := List.mem_map.mp hp
    split
    · rename_i d hd
      obtain ⟨rfl, hlast⟩ := get?_declaredParameters.mp hd
      exact .inl ⟨d, hlast, rfl⟩
    · rename_i hnone
      exact .inr ⟨get?_declaredParameters_eq_none.mp hnone, rfl⟩
  distinct := by
    refine ⟨?_, ?_⟩
    · rw [operationRecord, names_pathParameters]
      exact Route.nodup_placeholders path
    · rw [operationRecord, names_queryParameters]
      exact Entries.nodup_eraseDups _
  queryNames := names_queryParameters table _ _
  query p hp := by
    obtain ⟨d, hd, rfl⟩ := List.mem_map.mp hp
    obtain ⟨hmem, hquery⟩ := List.mem_filter.mp hd
    obtain ⟨⟨place, d⟩, he, rfl⟩ := List.mem_map.mp hmem
    obtain rfl : place = placeOf d := placeOf_of_mem he
    have hget := (Entries.get?_eq_some_iff_mem (Entries.nodup_keys_ofList _)).mpr he
    obtain ⟨-, hlast⟩ := get?_declaredParameters.mp hget
    exact ⟨d, of_decide_eq_true hquery ▸ hlast, rfl⟩

/-- Headers and cookies do not reach the clients. -/
def isReadLocation : Location → Bool
  | .path | .query => true
  | .header | .cookie => false

/-- Whether a declaration is read at all. A reference that was not resolved is not. -/
def isRead : RefOr Document.Parameter → Bool
  | .inline p => isReadLocation p.location
  | .ref _ => false

theorem declarations_filter (shared own : List (RefOr Document.Parameter)) :
    declarations (shared.filter isRead) (own.filter isRead) =
      (declarations shared own).filter fun p => isReadLocation p.location := by
  rw [declarations, declarations, ← List.filter_append]
  induction shared ++ own with
  | nil => rfl
  | cons p ps ih =>
    cases p with
    | ref path => exact ih
    | inline p =>
      have hinline (ps : List (RefOr Document.Parameter)) :
          (RefOr.inline p :: ps).filterMap RefOr.inline? = p :: ps.filterMap RefOr.inline? := rfl
      rw [hinline, List.filter_cons, List.filter_cons, isRead]
      split
      · rw [hinline, ih]
      · exact ih

theorem declaredParameters_filter (shared own : List (RefOr Document.Parameter)) :
    declaredParameters (shared.filter isRead) (own.filter isRead) =
      (declaredParameters shared own).filter fun e => isReadLocation e.1.1 := by
  have hpairs (ps : List Document.Parameter) :
      (ps.filter fun p => isReadLocation p.location).map (fun p => (placeOf p, p)) =
        (ps.map fun p => (placeOf p, p)).filter fun e => isReadLocation e.1.1 := by
    rw [List.filter_map]
    rfl
  rw [declaredParameters_eq, declaredParameters_eq, declarations_filter, hpairs]
  exact (Entries.filter_putAll (fun place : Location × String => isReadLocation place.1) [] _).symm

/-- What is not read leaves no trace in the record. -/
theorem operationRecord_filter (table : SchemaTable) (path : String) (item : PathItem) (id : String)
    (method : Method) (op : Document.Operation) :
    operationRecord table path { item with parameters := item.parameters.filter isRead } id method
      { op with parameters := op.parameters.filter isRead } =
        operationRecord table path item id method op := by
  have hpath : pathParameters table
      (declaredParameters (item.parameters.filter isRead) (op.parameters.filter isRead)) path =
        pathParameters table (declaredParameters item.parameters op.parameters) path := by
    rw [declaredParameters_filter]
    refine List.map_congr_left fun name _ => ?_
    have hget : Entries.get? ((declaredParameters item.parameters op.parameters).filter fun e =>
        isReadLocation e.1.1) (.path, name) =
          Entries.get? (declaredParameters item.parameters op.parameters) (.path, name) :=
      Entries.get?_filter (p := fun place : Location × String => isReadLocation place.1) rfl
    rw [hget]
  have hquery : (declaredParameters (item.parameters.filter isRead)
        (op.parameters.filter isRead)).values.filter (·.location = .query) =
      (declaredParameters item.parameters op.parameters).values.filter (·.location = .query) := by
    rw [declaredParameters_filter, Entries.values, Entries.values, List.filter_map, List.filter_map,
      List.filter_filter]
    congr 1
    refine List.filter_congr fun e he => ?_
    rw [placeOf_of_mem he, placeOf]
    cases hl : e.2.location <;> simp [isReadLocation, hl]
  rw [operationRecord, operationRecord, hpath, queryParameters, hquery, queryParameters]

/-- Whatever the template, and whatever is declared for a path and for an operation, the parameters of the
operation are those of the placeholders and of the query, as they were declared last. Nothing else counts. The
shapes are those that `Schema.shape` gives, which is `unknown` where a conversion never ends. -/
theorem parameters_merged (table : SchemaTable) (path : String) (item : PathItem) (id : String)
    (method : Method) (op : Document.Operation) :
    MergesParameters table path (declarations item.parameters op.parameters)
      (operationRecord table path item id method op) ∧
    operationRecord table path { item with parameters := item.parameters.filter isRead } id method
      { op with parameters := op.parameters.filter isRead } =
        operationRecord table path item id method op :=
  ⟨mergesParameters_operationRecord table path item id method op,
    operationRecord_filter table path item id method op⟩

end Extract
end ClientGen
