import ClientGen.Proofs.Casing
import ClientGen.Proofs.Document.Resolution
import ClientGen.Proofs.Extraction.Api
import ClientGen.Proofs.Package.Basic
import ClientGen.Proofs.Package.Names

/-! What the modules of a package export. The index of a TypeScript package exports every module again,
and would silently drop a name that two of them export; the index of a Python package would bind a name
twice. -/
namespace ClientGen
open Letter
variable {api : Api} {t : MappingTable} {mode : FingerprintMode} {m : Model} {o : Options}
  {a : Artifact} {ls : Lines} {files : List SourceFile} {name : String}

theorem ascii_serviceClassName (service : String) :
    ∀ c ∈ (serviceClassName service).toList, isAsciiAlnum c := by
  have hpascal := Words.ascii_joinedPascal fun v hv => ((Name.isLowered_words service).letters.2 v hv).2
  rw [serviceClassName, Name.pascal_eq, String.toList_append, String.toList_ofList]
  exact List.forall_mem_append.mpr ⟨hpascal, List.all_eq_true.mp (by decide)⟩

namespace TypeScript

/-! ### Exports read off the lines of a module -/

/-- What stands before a name that is exported. -/
def exportMarks : List String :=
  ["export const ", "export interface ", "export type ", "export class ", "export async function* "]

def isNameChar (c : Char) : Bool := isAsciiAlnum c || c == '_'

/-- The name that a line exports. -/
def exported? (line : String) : Option String :=
  (exportMarks.findSome? fun mark => Text.after? mark.toList line.toList).map fun rest =>
    String.ofList (rest.takeWhile isNameChar)

def exportedNames (ls : Lines) : List String := ls.filterMap exported?

theorem exported?_mark (mark name rest : String) (hm : mark ∈ exportMarks)
    (hname : name.toList.all isNameChar) (hrest : rest.toList.head?.any isNameChar = false) :
    exported? (mark ++ name ++ rest) = some name := by
  have hfind : (exportMarks.findSome? fun mark' => Text.after? mark'.toList (mark ++ name ++ rest).toList) =
      some (name.toList ++ rest.toList) := by
    rw [String.append_assoc, String.toList_append, String.toList_append]
    simp only [exportMarks, List.mem_cons, List.not_mem_nil, or_false] at hm
    rcases hm with rfl | rfl | rfl | rfl | rfl <;> rfl
  have htake : (name.toList ++ rest.toList).takeWhile isNameChar = name.toList := by
    rw [List.takeWhile_append_of_pos (List.all_eq_true.mp hname)]
    cases hr : rest.toList with
    | nil => simp
    | cons c cs =>
      have hc : isNameChar c = false := by simpa [hr] using hrest
      simp [hc]
  rw [exported?, hfind, Option.map_some, htake, String.ofList_toList]

/-- A line that differs from every mark in one place is no export. -/
theorem exported?_eq_none_of_place {line : String} (i : Nat) (hi : i < 8)
    (h : ∀ mark ∈ exportMarks, line.toList[i]? ≠ mark.toList[i]?) : exported? line = none := by
  have marks : ∀ mark ∈ exportMarks, 8 ≤ mark.toList.length := by decide
  rw [exported?, Option.map_eq_none_iff, List.findSome?_eq_none_iff]
  intro mark hmark
  cases hafter : Text.after? mark.toList line.toList with
  | none => rfl
  | some rest =>
    refine (h mark hmark ?_).elim
    rw [Text.after?_eq_some.mp hafter, List.getElem?_append_left (Nat.lt_of_lt_of_le hi (marks mark hmark))]

theorem exported?_eq_none {line : String} (h : line.toList.head? ≠ some 'e') : exported? line = none := by
  have marks : ∀ mark ∈ exportMarks, mark.toList[0]? = some 'e' := by decide
  refine exported?_eq_none_of_place 0 (by decide) fun mark hmark => ?_
  rwa [marks mark hmark, ← List.head?_eq_getElem?]

/-! ### Lines that export nothing -/

@[simp] theorem exportedNames_append (ls more : Lines) :
    exportedNames (ls ++ more) = exportedNames ls ++ exportedNames more :=
  List.filterMap_append

theorem exportedNames_cons_of_none {line : String} (h : exported? line = none) (ls : Lines) :
    exportedNames (line :: ls) = exportedNames ls :=
  List.filterMap_cons_none h

-- For a line that is written out: its text is never decoded.
theorem exportedNames_cons_ofList {l : List Char} (h : l.head? ≠ some 'e') (ls : Lines) :
    exportedNames (String.ofList l :: ls) = exportedNames ls :=
  exportedNames_cons_of_none (exported?_eq_none (by rwa [String.toList_ofList])) ls

@[simp] theorem exportedNames_indent (width : Nat) (ls : Lines) :
    exportedNames (Lines.indent (width + 1) ls) = [] := by
  refine List.filterMap_eq_nil_iff.mpr fun line hline => exported?_eq_none ?_
  obtain ⟨l, -, rfl⟩ := List.mem_map.mp hline
  split
  · rename_i hempty
    rw [String.isEmpty_iff.mp hempty]
    decide
  · simp [List.replicate_succ]

@[simp] theorem exportedNames_block (head : String) (body : Lines) :
    exportedNames (block head body) = (exported? (head ++ " \x7b")).toList := by
  have hbody : exportedNames (Lines.indent 2 body ++ ["\x7d"]) = [] := by
    rw [exportedNames_append, exportedNames_indent]
    rfl
  rw [block, List.cons_append, exportedNames, List.filterMap_cons]
  rw [exportedNames] at hbody
  cases exported? (head ++ " \x7b") <;> simp [hbody]

/-- A block that is exported by its first line. -/
theorem exportedNames_block_of_head (head mark name rest : String) (hhead : head = mark ++ name ++ rest)
    (hm : mark ∈ exportMarks) (hname : name.toList.all isNameChar)
    (hrest : (rest ++ " \x7b").toList.head?.any isNameChar = false) (body : Lines) :
    exportedNames (block head body) = [name] := by
  rw [exportedNames_block, hhead, String.append_assoc, exported?_mark mark name _ hm hname hrest]
  rfl

@[simp] theorem exportedNames_apart (blocks : List Lines) :
    exportedNames (Lines.apart blocks) = blocks.flatMap exportedNames := by
  fun_induction Lines.apart blocks with
  | case1 => rfl
  | case2 ls => simp
  | case3 ls rest _ ih =>
    have hempty : exported? "" = none := rfl
    rw [exportedNames_append, exportedNames_cons_of_none hempty, ih, List.flatMap_cons]

theorem exportedNames_ite (c : Prop) [Decidable c] {more : Lines} (h : exportedNames ls = [])
    (hmore : exportedNames more = []) : exportedNames (if c then ls else more) = [] := by
  split
  · exact h
  · exact hmore

theorem exportedNames_docs (h : exportedNames ls = []) (o : Options) : exportedNames (o.docs ls) = [] :=
  exportedNames_ite _ rfl h

/-! ### The modules of a package -/

def runtimeExports : List String :=
  ["DEFAULT_BASE_URL", "DEFAULT_TIMEOUT_MS", "ClientConfig", "RequestOptions", "RequestParts", "ApiError",
    "Transport"]

def decoderExports : List String := ["parseSse", "parseNdjson"]

/-- What each module exports. -/
def moduleExports (m : Model) : Artifact → List String
  | .types => m.typeNames
  | .validators => m.typeNames.map schemaConst
  | .runtime => runtimeExports
  | .flatClient => ["ApiClient"]
  | .serviceClient => m.serviceClassNames ++ ["ServiceClient"]
  | .streaming => decoderExports
  | .index => []

theorem isNameChar_of_ascii {c : Char} (h : isAsciiAlnum c) : isNameChar c := by simp [isNameChar, h]

section Declarations
variable {v : SchemaView} (hv : v.name.toList.all isNameChar)
include hv

theorem exportedNames_typeDeclaration : exportedNames (typeDeclaration v) = [v.name] := by
  have synonym (target : String) :
      exported? ("export type " ++ v.name ++ " = " ++ target ++ ";") = some v.name := by
    have hline := exported?_mark "export type " v.name (" = " ++ target ++ ";") (by decide) hv
      (by simp; decide)
    simpa only [String.append_assoc] using hline
  rw [typeDeclaration]
  split
  · exact exportedNames_block_of_head _ "export interface " v.name "" String.append_empty.symm (by decide) hv
      (by decide) _
  · exact List.filterMap_cons_some (synonym _)
  · exact List.filterMap_cons_some (synonym _)

theorem exportedNames_validatorDeclaration :
    exportedNames (validatorDeclaration v) = [schemaConst v.name] := by
  have hconst : (schemaConst v.name).toList.all isNameChar := by
    rw [schemaConst, String.toList_append, List.all_append, hv]
    decide
  have head (rest : String) : exported? ("export const " ++ schemaConst v.name ++ ": z.ZodType<" ++ v.name
      ++ "> = " ++ rest) = some (schemaConst v.name) := by
    have hline := exported?_mark "export const " (schemaConst v.name)
      (": z.ZodType<" ++ v.name ++ "> = " ++ rest) (by decide) hconst (by simp; decide)
    simpa only [String.append_assoc] using hline
  rw [validatorDeclaration]
  split
  · rename_i fields additional _
    have catchall (value : String) : exported? ("  .catchall(" ++ value ++ ");") = none :=
      exported?_eq_none (by simp)
    dsimp only
    rw [exportedNames_append, exportedNames_append, exportedNames_append, exportedNames_indent]
    have opening : exportedNames ["export const " ++ schemaConst v.name ++ ": z.ZodType<" ++ v.name ++ "> = "
        ++ "z", "  .object(\x7b"] = [schemaConst v.name] := List.filterMap_cons_some (head "z")
    cases additional with
    | none => rw [opening]; rfl
    | some value =>
      rw [opening]
      exact congrArg _ (exportedNames_cons_of_none (catchall value) [])
  · rename_i values _
    have hline := head ("z.enum([" ++ ", ".intercalate (values.map quoted) ++ "]);")
    simp only [← String.append_assoc] at hline
    exact List.filterMap_cons_some hline
  · rename_i target _
    have hline := head (target ++ ";")
    simp only [← String.append_assoc] at hline
    exact List.filterMap_cons_some hline

end Declarations

theorem exported?_header (sources : List String) : exported? (Lines.header "//" sources) = none := by
  refine exported?_eq_none ?_
  simp [Lines.header]

theorem exportedNames_descriptionComment (description : Option String) :
    exportedNames (descriptionComment o description) = [] := by
  rw [descriptionComment.eq_def]
  split
  · rfl
  · rfl
  · exact exportedNames_docs (exportedNames_cons_of_none (exported?_eq_none (by simp)) []) o

theorem exportedNames_types (h : ∀ name ∈ m.typeNames, name.toList.all isNameChar) :
    exportedNames (types m o) = m.typeNames := by
  have declaration : ∀ s ∈ m.schemas, (fun s => exportedNames
      (descriptionComment o (SchemaView.of m.types type s).description ++
        typeDeclaration (.of m.types type s))) s = [s.name] := by
    intro s hs
    dsimp only
    rw [exportedNames_append, exportedNames_descriptionComment, List.nil_append,
      exportedNames_typeDeclaration (h s.name (List.mem_map_of_mem hs))]
    rfl
  have blank : exportedNames [""] = [] := rfl
  rw [types, exportedNames_append, exportedNames_cons_of_none (exported?_header _), blank, List.nil_append,
    exportedNames_apart, List.flatMap_map, List.flatMap_map, List.flatMap_congr declaration,
    Model.typeNames, List.map_eq_flatMap]

theorem exportedNames_validators (h : ∀ name ∈ m.typeNames, name.toList.all isNameChar) :
    exportedNames (validators m) = m.typeNames.map schemaConst := by
  have declaration : ∀ s ∈ m.schemas, (fun s => exportedNames
      (validatorDeclaration (.of m.types validator s))) s = [schemaConst s.name] := by
    intro s hs
    exact exportedNames_validatorDeclaration (h s.name (List.mem_map_of_mem hs))
  have imports : exportedNames ("import \x7b z \x7d from \"zod\";" :: (if m.schemas.isEmpty then []
      else "import type \x7b" :: Lines.indent 2 (m.schemas.map (·.name ++ ","))
        ++ ["\x7d from \"./types\";"])) = [] := by
    rw [exportedNames_cons_ofList (by decide)]
    split
    · rfl
    · rw [exportedNames_append, exportedNames_cons_ofList (by decide), exportedNames_indent,
        exportedNames_cons_ofList (by decide)]
      rfl
  have header : exportedNames [Lines.header "//" []] = [] :=
    exportedNames_cons_of_none (exported?_header []) []
  rw [validators, exportedNames_apart, List.flatMap_cons, List.flatMap_cons, List.flatMap_map,
    List.flatMap_map, List.flatMap_congr declaration, header, imports, Model.typeNames, List.map_map,
    List.map_eq_flatMap]
  rfl

theorem exportedNames_runtime : exportedNames (runtime m o) = runtimeExports := by
  have constant (front name value : String) (hfront : front = "export const " ++ name ++ " = ")
      (hname : name.toList.all isNameChar) : exported? (front ++ value ++ ";") = some name := by
    have hline := exported?_mark "export const " name (" = " ++ value ++ ";") (by decide) hname
      (by simp; decide)
    rw [hfront]
    simpa only [String.append_assoc] using hline
  have defaults : exportedNames (Runtime.defaults m o) = ["DEFAULT_BASE_URL", "DEFAULT_TIMEOUT_MS"] := by
    have baseUrl := constant "export const DEFAULT_BASE_URL = " "DEFAULT_BASE_URL"
      (quoted (m.defaultBaseUrl o)) rfl (by decide)
    have timeout := constant "export const DEFAULT_TIMEOUT_MS = " "DEFAULT_TIMEOUT_MS"
      (toString (Runtime.timeoutMs o)) rfl (by decide)
    rw [Runtime.defaults, exportedNames, List.filterMap_cons_some baseUrl, List.filterMap_cons_some timeout,
      List.filterMap_nil]
  have config : exportedNames (Runtime.clientConfig o) = ["ClientConfig"] := by
    rw [Runtime.clientConfig, exportedNames_append,
      exportedNames_docs (exportedNames_cons_ofList (by decide) []),
      exportedNames_block_of_head "export interface ClientConfig" "export interface " "ClientConfig" "" rfl
        (by decide) (by decide) (by decide), List.nil_append]
  have requestOptions : exportedNames Runtime.requestOptions = ["RequestOptions"] := by
    rw [Runtime.requestOptions,
      exportedNames_block_of_head "export interface RequestOptions" "export interface " "RequestOptions" ""
        rfl (by decide) (by decide) (by decide)]
  have requestParts : exportedNames Runtime.requestParts = ["RequestParts"] := by
    rw [Runtime.requestParts,
      exportedNames_block_of_head "export interface RequestParts" "export interface " "RequestParts" "" rfl
        (by decide) (by decide) (by decide)]
  have error : exportedNames (Runtime.apiError o) = ["ApiError"] := by
    rw [Runtime.apiError, exportedNames_append, exportedNames_docs (exportedNames_cons_ofList (by decide) []),
      exportedNames_block_of_head "export class ApiError extends Error" "export class " "ApiError"
        " extends Error" rfl (by decide) (by decide) (by decide), List.nil_append]
  have transport : exportedNames Runtime.transport = ["Transport"] := by
    rw [Runtime.transport,
      exportedNames_block_of_head "export class Transport" "export class " "Transport" "" rfl
        (by decide) (by decide) (by decide)]
  rw [runtime, exportedNames_apart]
  simp only [List.flatMap_cons, List.flatMap_nil, defaults, config, requestOptions, requestParts, error,
    transport, exportedNames_cons_of_none (exported?_header _)]
  rfl

theorem exportedNames_streaming : exportedNames streaming = decoderExports := by
  have lineReader : exportedNames Streaming.lineReader = [] := by
    have head : exported? ("async function* lines(response: Response, signal?: AbortSignal): "
        ++ "AsyncGenerator<string>" ++ " \x7b") = none := by
      refine exported?_eq_none ?_
      rw [String.toList_append, String.toList_append, String.toList_ofList]
      decide
    rw [Streaming.lineReader, exportedNames_block, head]
    rfl
  have decoder (name : String) (hname : name.toList.all isNameChar) (body : Lines) :
      exportedNames (block ("export async function* " ++ name
        ++ "<T>(response: Response, signal?: AbortSignal): AsyncGenerator<T>") body) = [name] := by
    refine exportedNames_block_of_head _ _ name _ rfl (by decide) hname ?_ body
    rw [String.toList_append, String.toList_ofList]
    decide
  have sseHead : "export async function* parseSse<T>(response: Response, signal?: AbortSignal): "
      ++ "AsyncGenerator<T>" = "export async function* " ++ "parseSse"
        ++ "<T>(response: Response, signal?: AbortSignal): AsyncGenerator<T>" := rfl
  have ndjsonHead : "export async function* parseNdjson<T>(response: Response, signal?: AbortSignal): "
      ++ "AsyncGenerator<T>" = "export async function* " ++ "parseNdjson"
        ++ "<T>(response: Response, signal?: AbortSignal): AsyncGenerator<T>" := rfl
  have eventDecoder : exportedNames Streaming.eventDecoder = ["parseSse"] := by
    rw [Streaming.eventDecoder, exportedNames_append, exportedNames_cons_ofList (by decide),
      exportedNames_cons_ofList (by decide), exportedNames_cons_ofList (by decide),
      exportedNames_cons_ofList (by decide), sseHead, decoder "parseSse" (by decide)]
    rfl
  have lineDecoder : exportedNames Streaming.lineDecoder = ["parseNdjson"] := by
    rw [Streaming.lineDecoder, exportedNames_append, exportedNames_cons_ofList (by decide), ndjsonHead,
      decoder "parseNdjson" (by decide)]
    rfl
  rw [streaming, exportedNames_apart]
  simp only [List.flatMap_cons, List.flatMap_nil, lineReader, eventDecoder, lineDecoder,
    exportedNames_cons_of_none (exported?_header _)]
  rfl

theorem exportedNames_importLines (methods : List ClientMethod) :
    exportedNames (importLines methods) = [] := by
  have decoders (what : String) : exportedNames ["import " ++ what ++ " from \"./streaming\";"] = [] :=
    exportedNames_cons_of_none (exported?_eq_none (by simp)) []
  have types (what : String) : exportedNames ["import type " ++ what ++ " from \"./types\";"] = [] :=
    exportedNames_cons_of_none (exported?_eq_none (by simp)) []
  rw [importLines, exportedNames_append, exportedNames_append, exportedNames_cons_ofList (by decide),
    exportedNames_ite _ rfl (decoders _), exportedNames_ite _ rfl (types _)]
  rfl

theorem exportedNames_titleComment (what : String) : exportedNames (titleComment m o what) = [] :=
  exportedNames_docs (exportedNames_cons_of_none (exported?_eq_none (by simp)) []) o

theorem exportedNames_flatClient (h : flatClient m o = .ok ls) : exportedNames ls = ["ApiClient"] := by
  obtain ⟨methods, -, h⟩ := bind_eq_ok.mp h
  have client : exportedNames (flatClass o methods) = ["ApiClient"] :=
    exportedNames_block_of_head _ "export class " "ApiClient" "" rfl (by decide) (by decide) (by decide) _
  rw [← pure_eq_ok.mp h, exportedNames_apart]
  simp only [List.flatMap_cons, List.flatMap_nil, exportedNames_cons_of_none (exported?_header _),
    exportedNames_importLines, exportedNames_append, exportedNames_titleComment, client]
  rfl

theorem exportedNames_serviceLines (service : String) (ops : List Api.Operation) :
    exportedNames (Service.lines o (.of m service ops)) = [serviceClassName service] := by
  have hascii : (serviceClassName service).toList.all isNameChar := List.all_eq_true.mpr fun c hc =>
    isNameChar_of_ascii (ascii_serviceClassName service c hc)
  rw [Service.lines]
  exact exportedNames_block_of_head _ "export class " (serviceClassName service) "" String.append_empty.symm
    (by decide) hascii (by decide) _

theorem exportedNames_serviceClient (h : serviceClient m o = .ok ls) :
    exportedNames ls = m.serviceClassNames ++ ["ServiceClient"] := by
  obtain ⟨g, hg, h⟩ := bind_eq_ok.mp h
  obtain ⟨groups, hgroups, rfl⟩ := exceptMap_eq_ok.mp hg
  obtain rfl := Model.services_eq_ok hgroups
  have services : (m.namedGroups.map fun group => Service.of m group.1 group.2).flatMap
      (fun s => exportedNames (Service.lines o s)) = m.serviceClassNames := by
    rw [List.flatMap_map, Model.serviceClassNames, Entries.keys, List.map_map, List.map_eq_flatMap]
    exact List.flatMap_congr fun group _ => exportedNames_serviceLines group.1 group.2
  have client (g : GroupedClient) : exportedNames (groupedClass o g) = ["ServiceClient"] :=
    exportedNames_block_of_head _ "export class " "ServiceClient" "" rfl (by decide) (by decide) (by decide) _
  rw [← pure_eq_ok.mp h, exportedNames_apart, List.flatMap_append, List.flatMap_append, List.flatMap_map,
    services]
  simp only [List.flatMap_cons, List.flatMap_nil, exportedNames_cons_of_none (exported?_header _),
    exportedNames_importLines, exportedNames_append, exportedNames_titleComment, client]
  rfl

/-- The index has no exports of its own: it exports the modules again. -/
theorem exportedNames_index : exportedNames (index m o) = [] := by
  have again {l : List Char} (h : l[7]? = some '*' ∨ l[7]? = some '\x7b') :
      exported? (String.ofList l) = none := by
    have marks : ∀ mark ∈ exportMarks, some '*' ≠ mark.toList[7]? ∧ some '\x7b' ≠ mark.toList[7]? := by decide
    refine exported?_eq_none_of_place 7 (by decide) fun mark hmark => ?_
    rw [String.toList_ofList]
    rcases h with h | h <;> rw [h]
    · exact (marks mark hmark).1
    · exact (marks mark hmark).2
  have planned (c : Prop) [Decidable c] {line : String} (h : exported? line = none) :
      exportedNames (if c then [line] else []) = [] :=
    exportedNames_ite c (exportedNames_cons_of_none h []) rfl
  have modules : exportedNames [Lines.header "//" [], "", "export * from \"./types\";",
      "export * from \"./schemas\";", "export * from \"./runtime\";"] = [] := by
    rw [exportedNames_cons_of_none (exported?_header []), exportedNames_cons_ofList (by decide),
      exportedNames_cons_of_none (again (by decide)), exportedNames_cons_of_none (again (by decide)),
      exportedNames_cons_of_none (again (by decide))]
    rfl
  rw [index, exportedNames_append, exportedNames_append, exportedNames_append, modules,
    planned _ (again (by decide)), planned _ (again (by decide)), planned _ (again (by decide))]
  rfl

/-- Every module exports what it is made for, and nothing else. -/
theorem exportedNames_render (h : ∀ name ∈ m.typeNames, Identifier.IsWord name)
    (hr : render m o a = .ok ls) : exportedNames ls = moduleExports m a := by
  obtain ⟨_, -, hr⟩ := bind_eq_ok.mp hr
  have hchars : ∀ name ∈ m.typeNames, name.toList.all isNameChar := fun name hname =>
    List.all_eq_true.mpr fun c hc => isNameChar_of_ascii ((h name hname).letters c hc)
  cases a with
  | types => exact pure_eq_ok.mp hr ▸ exportedNames_types hchars
  | validators => exact pure_eq_ok.mp hr ▸ exportedNames_validators hchars
  | runtime => exact pure_eq_ok.mp hr ▸ exportedNames_runtime
  | flatClient => exact exportedNames_flatClient (mapError_eq_ok.mp hr)
  | serviceClient => exact exportedNames_serviceClient (mapError_eq_ok.mp hr)
  | streaming => exact pure_eq_ok.mp hr ▸ exportedNames_streaming
  | index => exact pure_eq_ok.mp hr ▸ exportedNames_index

/-! ### No export shadows another -/

/-- What every package may export, whatever its document declares. -/
def fixedExports : List String := runtimeExports ++ ["ApiClient", "ServiceClient"] ++ decoderExports

theorem nodup_validatorNames (h : m.typeNames.Nodup) : (m.typeNames.map schemaConst).Nodup :=
  h.map fun _ _ he => (String.append_left_inj _).mp he

theorem getLast?_schemaConst (name : String) : (schemaConst name).toList.getLast? = some 'a' := by
  rw [schemaConst, String.toList_append, List.getLast?_append]
  rfl

theorem disjoint_validatorNames_serviceClassNames :
    (m.typeNames.map schemaConst).Disjoint m.serviceClassNames := by
  intro name hconst hservice
  obtain ⟨n, -, rfl⟩ := List.mem_map.mp hconst
  obtain ⟨service, -, he⟩ := List.mem_map.mp hservice
  have hlast := getLast?_schemaConst n
  rw [← he, serviceClassName, String.toList_append, List.getLast?_append] at hlast
  simp at hlast

theorem disjoint_validatorNames_fixedExports :
    (m.typeNames.map schemaConst).Disjoint fixedExports := by
  have fixed : ∀ name ∈ fixedExports, name.toList.getLast? ≠ some 'a' := by decide
  intro name hconst hfixed
  obtain ⟨n, -, rfl⟩ := List.mem_map.mp hconst
  exact fixed _ hfixed (getLast?_schemaConst n)

theorem disjoint_serviceClassNames_fixedExports : m.serviceClassNames.Disjoint fixedExports := by
  have fixed : ∀ name ∈ fixedExports, Text.before? "Service".toList name.toList = none := by decide
  intro name hservice hfixed
  obtain ⟨service, -, rfl⟩ := List.mem_map.mp hservice
  have hnone := fixed _ hfixed
  rw [serviceClassName, String.toList_append, Text.before?_eq_some.mpr rfl] at hnone
  cases hnone

/-- What the modules of a package export: types, validators, classes of services and the rest. No two of
these share a name, so that the index hides none of them. -/
structure ExportsApart (m : Model) (o : Options) : Prop where
  modules : ∀ a ∈ m.plan o, ∃ ls, render m o a = .ok ls ∧ exportedNames ls = moduleExports m a
  apart : [m.typeNames, m.typeNames.map schemaConst, m.serviceClassNames, fixedExports].Pairwise List.Disjoint
  types : m.typeNames.Nodup
  validators : (m.typeNames.map schemaConst).Nodup

theorem exportsApart (hwords : ∀ name ∈ m.typeNames, Identifier.IsWord name) (hd : m.typeNames.Nodup)
    (h : m.generate .typescript o = .ok files) : ExportsApart m o := by
  have free (name : String) (hname : name ∈ m.typeNames) :=
    isTaken_eq_false_iff.mp (Model.not_taken_of_generate h name hname)
  have generated : fixedExports ⊆ generatedNames := by decide
  have typesValidators : m.typeNames.Disjoint (m.typeNames.map schemaConst) :=
    fun name hname => (free name hname).2.2.2
  have typesServices : m.typeNames.Disjoint m.serviceClassNames :=
    fun name hname => (free name hname).2.2.1
  have typesFixed : m.typeNames.Disjoint fixedExports :=
    fun name hname hfixed => (free name hname).2.1 (generated hfixed)
  refine ⟨fun a ha => ?_, ?_, hd, nodup_validatorNames hd⟩
  · obtain ⟨ls, hls⟩ := Model.exists_render_of_generate h ha
    exact ⟨ls, hls, exportedNames_render hwords hls⟩
  · simp only [List.pairwise_cons, List.mem_cons, List.not_mem_nil, or_false, forall_eq_or_imp, forall_eq,
      List.Pairwise.nil, and_true, false_implies, implies_true]
    exact ⟨⟨typesValidators, typesServices, typesFixed⟩,
      ⟨disjoint_validatorNames_serviceClassNames, disjoint_validatorNames_fixedExports⟩,
      disjoint_serviceClassNames_fixedExports⟩

end TypeScript

namespace Python

/-- What every package may export, whatever its document declares. -/
def fixedExports : List String :=
  ["schemas", "ApiClientConfig", "ApiError", "Transport", "ApiClient", "ServiceClient", "iter_ndjson",
    "iter_sse"]

/-- The types of a package are apart from the classes of its services and from the rest, and the index
binds no name twice. -/
structure ExportsApart (m : Model) (o : Options) : Prop where
  types : m.typeNames.Nodup
  services : m.typeNames.Disjoint m.serviceClassNames
  fixed : m.typeNames.Disjoint fixedExports
  index : (exports m o).Nodup

theorem exists_sublist_exports (m : Model) (o : Options) :
    ∃ fixed, fixed.Sublist fixedExports ∧ exports m o = fixed ++ m.typeNames := by
  refine ⟨_, ?_, rfl⟩
  have planned : ((plannedExports m o).flatMap Prod.snd).Sublist
      ["ApiClient", "ServiceClient", "iter_ndjson", "iter_sse"] := by
    simp only [plannedExports, List.filterMap_cons, List.filterMap_nil]
    by_cases hflat : .flatClient ∈ m.plan o <;> by_cases hservice : .serviceClient ∈ m.plan o <;>
      by_cases hstreaming : .streaming ∈ m.plan o <;> simp [hflat, hservice, hstreaming]
  exact (List.Sublist.refl ["schemas", "ApiClientConfig", "ApiError", "Transport"]).append planned

theorem exportsApart (hwords : ∀ name ∈ m.typeNames, Identifier.IsWord name) (hd : m.typeNames.Nodup)
    (h : m.generate .python o = .ok files) : ExportsApart m o := by
  have free (name : String) (hname : name ∈ m.typeNames) :=
    isTaken_eq_false_iff.mp (Model.not_taken_of_generate h name hname)
  -- Decoders are the only names that are not in use, and no word has an underscore.
  have generated : ∀ name ∈ fixedExports, name ∈ generatedNames ∨ '_' ∈ name.toList := by decide
  have fixed : m.typeNames.Disjoint fixedExports := by
    intro name hname hfixed
    rcases generated name hfixed with hgenerated | hunderscore
    · exact (free name hname).2.1 hgenerated
    · exact absurd ((hwords name hname).letters '_' hunderscore) (by decide)
  have index : (exports m o).Nodup := by
    obtain ⟨rest, hrest, he⟩ := exists_sublist_exports m o
    have distinct : fixedExports.Nodup := by decide
    rw [he]
    exact (distinct.sublist hrest).append hd fun name hr hname => fixed hname (hrest.subset hr)
  exact ⟨hd, fun name hname => (free name hname).2.2, fixed, index⟩

end Python

theorem Api.exportsApart (hd : (api.schemas.map (·.name)).Nodup)
    (h : api.prepare (some t) mode = .ok (.ready m)) (o : Options) :
    (∀ files, m.generate .typescript o = .ok files → TypeScript.ExportsApart m o) ∧
      ∀ files, m.generate .python o = .ok files → Python.ExportsApart m o := by
  have hwords := Api.isWord_of_prepare h
  have hnames := Api.nodup_typeNames_of_prepare hd h
  exact ⟨fun _ => TypeScript.exportsApart hwords hnames, fun _ => Python.exportsApart hwords hnames⟩

variable {d : Document}

/-- In every package that is generated, under every mapping, both kinds of fingerprints and every layout,
no export of a module has the name of an export of another. Component schemas are an ordered map, so
their names are distinct. -/
theorem Document.exports_apart (hd : (Entries.keys d.sections.schemas).Nodup)
    (h : d.extract.prepare (some t) mode = .ok (.ready m)) (o : Options) :
    (∀ files, m.generate .typescript o = .ok files → TypeScript.ExportsApart m o) ∧
      ∀ files, m.generate .python o = .ok files → Python.ExportsApart m o := by
  have hnames : d.extract.schemas.map (·.name) = Entries.keys d.sections.schemas := Extract.names_schemas
  exact Api.exportsApart (hnames ▸ hd) h o

/-- A stream that is put into a service, of a schema that is renamed. -/
theorem Document.exports_apart_feed : ∃ m typescript python,
    (feed (.inline feedId)).extract.prepare
      (some ⟨[("follow", .service "feed" "follow")], [("A", "Event")]⟩) .typed = .ok (.ready m) ∧
    m.typeNames = ["Event", "B"] ∧ m.serviceClassNames = ["FeedService"] ∧
    m.generate .typescript ⟨.both, none, 30, false⟩ = .ok typescript ∧
    m.generate .python ⟨.both, none, 30, false⟩ = .ok python ∧
    TypeScript.ExportsApart m ⟨.both, none, 30, false⟩ ∧ Python.ExportsApart m ⟨.both, none, 30, false⟩ := by
  obtain ⟨m, typescript, python, hm, htypes, hservices, ht, hp⟩ : ∃ m typescript python,
      (feed (.inline feedId)).extract.prepare
        (some ⟨[("follow", .service "feed" "follow")], [("A", "Event")]⟩) .typed = .ok (.ready m) ∧
      m.typeNames = ["Event", "B"] ∧ m.serviceClassNames = ["FeedService"] ∧
      m.generate .typescript ⟨.both, none, 30, false⟩ = .ok typescript ∧
      m.generate .python ⟨.both, none, 30, false⟩ = .ok python :=
    ⟨_, _, _, rfl, rfl, rfl, rfl, rfl⟩
  obtain ⟨apartTypescript, apartPython⟩ := Document.exports_apart (by decide) hm ⟨.both, none, 30, false⟩
  exact ⟨m, typescript, python, hm, htypes, hservices, ht, hp, apartTypescript _ ht, apartPython _ hp⟩

end ClientGen
