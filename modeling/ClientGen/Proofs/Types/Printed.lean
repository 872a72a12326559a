import ClientGen.Python.Type
import ClientGen.TypeScript.Type
import ClientGen.Proofs.Json.Literal
import ClientGen.Proofs.Marks
import ClientGen.Proofs.Renaming.Identifiers

/-! Types as they are printed. The outermost constructor of a type shows in one character of its text, or
the text is a word, and the texts of its parts are found again in it. So two types are printed alike only if
they are the same, up to what a language does not tell apart. -/
namespace ClientGen

namespace TypeExpr

/-- What is printed without ambiguity: enums with values, and names that are words, but none of those
that the language has for types of its own. -/
def IsPlain (words : List String) : TypeExpr → Prop
  | enum values => values ≠ []
  | named name => Identifier.IsWord name ∧ name ∉ words
  | array item => item.IsPlain words
  | map value => value.IsPlain words
  | _ => True

/-- An open object is a map to anything. Integers are numbers in a language that has no type for them. -/
def identified (merges : Bool) : TypeExpr → TypeExpr
  | integer => if merges then number else integer
  | array item => array (item.identified merges)
  | map value => map (value.identified merges)
  | openObject => map unknown
  | t => t

/-- The outermost constructor, with nothing in it. -/
def shell (merges : Bool) : TypeExpr → TypeExpr
  | integer => if merges then number else integer
  | enum _ => enum []
  | named _ => named ""
  | array _ => array unknown
  | map _ => map unknown
  | openObject => map unknown
  | t => t

end TypeExpr

/-- How a text shows its type: by a mark at some place in it, or as one of the words of the language. -/
structure Signs where
  mark : List Char → Option Char
  marks : Entries Char TypeExpr
  words : Entries String TypeExpr

namespace Signs
variable {g : Signs} {s : String} {c : Char} {t : TypeExpr}

/-- The outermost constructor of the type that a text shows. -/
def read (g : Signs) (s : String) : TypeExpr :=
  match (g.mark s.toList).bind (Entries.get? g.marks) with
  | some t => t
  | none => (Entries.get? g.words s).getD (.named "")

theorem read_of_mark (hc : g.mark s.toList = some c) (ht : Entries.get? g.marks c = some t) :
    g.read s = t := by
  rw [read, hc, Option.bind_some, ht]

/-- A text without a mark is a name, if it is no word. -/
theorem read_of_not_mem (hc : ∀ c ∈ g.mark s.toList, c ∉ Entries.keys g.marks)
    (hs : s ∉ Entries.keys g.words) : g.read s = .named "" := by
  have hmark : (g.mark s.toList).bind (Entries.get? g.marks) = none := by
    rw [Option.bind_eq_none_iff]
    intro c h
    exact Entries.get?_eq_none_iff.mpr (hc c h)
  rw [read, hmark, Entries.get?_eq_none_iff.mpr hs]
  rfl

end Signs

/-- What shows in the texts of types: the outermost constructor, and all that is in it. -/
structure Legible (words : List String) (merges : Bool) (write : TypeExpr → String) : Prop where
  shell : ∃ read : String → TypeExpr, ∀ {a}, a.IsPlain words → read (write a) = a.shell merges
  enum : ∀ {vs ws}, vs ≠ [] → ws ≠ [] → write (.enum vs) = write (.enum ws) → vs = ws
  named : ∀ {m n}, write (.named m) = write (.named n) → m = n
  array : ∀ {a b}, write (.array a) = write (.array b) ↔ write a = write b
  map : ∀ {a b}, write (.map a) = write (.map b) ↔ write a = write b
  openObject : write .openObject = write (.map .unknown)
  integer : merges → write .integer = write .number

namespace Legible
variable {words : List String} {merges : Bool} {write : TypeExpr → String} {a b : TypeExpr}

/-- What is not told apart is printed alike. -/
theorem write_identified (h : Legible words merges write) (a : TypeExpr) :
    write (a.identified merges) = write a := by
  induction a with
  | integer =>
    cases hm : merges with
    | false => rfl
    | true => exact (h.integer hm).symm
  | array item ih => exact h.array.mpr ih
  | map value ih => exact h.map.mpr ih
  | openObject => exact h.openObject.symm
  | _ => rfl

theorem shell_eq (h : Legible words merges write) (ha : a.IsPlain words) (hb : b.IsPlain words)
    (he : write a = write b) : a.shell merges = b.shell merges := by
  obtain ⟨read, hread⟩ := h.shell
  rw [← hread ha, he, hread hb]

/-- Types that are printed alike have the same outermost constructor, and parts that are printed alike. -/
theorem identified_eq (h : Legible words merges write) (ha : a.IsPlain words) (hb : b.IsPlain words)
    (he : write a = write b) : a.identified merges = b.identified merges := by
  have hs := h.shell_eq ha hb he
  -- Where the constructors differ, the shells do, but for an open object and a map to anything.
  induction a generalizing b with
  | enum vs =>
    cases b with
    | enum ws => rw [h.enum ha hb he]
    | _ => grind [TypeExpr.shell]
  | named m =>
    cases b with
    | named n => rw [h.named he]
    | _ => grind [TypeExpr.shell]
  | array item ih =>
    cases b with
    | array item' =>
      have he := h.array.mp he
      rw [TypeExpr.identified, TypeExpr.identified, ih (b := item') ha hb he (h.shell_eq ha hb he)]
    | _ => grind [TypeExpr.shell]
  | map value ih =>
    cases b with
    | map value' =>
      have he := h.map.mp he
      rw [TypeExpr.identified, TypeExpr.identified, ih (b := value') ha hb he (h.shell_eq ha hb he)]
    | openObject =>
      have he := h.map.mp (he.trans h.openObject)
      rw [TypeExpr.identified, ih (b := .unknown) ha trivial he (h.shell_eq ha trivial he)]
      rfl
    | _ => grind [TypeExpr.shell]
  | openObject =>
    cases b with
    | map value =>
      have he := h.map.mp (h.openObject.symm.trans he)
      have hs := h.shell_eq (a := .unknown) (b := value) trivial hb he
      cases value <;> grind [TypeExpr.shell, TypeExpr.identified]
    | openObject => rfl
    | _ => grind [TypeExpr.shell]
  | _ => cases b <;> grind [TypeExpr.shell, TypeExpr.identified]

end Legible

/-! ### Parts of texts -/

theorem getLast?_append {c : Char} {s t : String} (h : t.toList.getLast? = some c) :
    (s ++ t).toList.getLast? = some c := by
  rw [String.toList_append, List.getLast?_append, h, Option.some_or]

theorem getElem?_append {n : Nat} {c : Char} {s t : String} (h : s.toList[n]? = some c) :
    (s ++ t).toList[n]? = some c := by
  obtain ⟨hn, -⟩ := List.getElem?_eq_some_iff.mp h
  rw [String.toList_append, List.getElem?_append_left hn, h]

theorem getLast?_quoted (s : String) : (quoted s).toList.getLast? = some '"' := by
  rw [quoted, String.toList_ofList, Quoted.encode, ← List.cons_append, List.getLast?_concat]

/-- A text between two fixed ones is found again. -/
theorem enclosed_inj {opening closing s t : String} :
    opening ++ s ++ closing = opening ++ t ++ closing ↔ s = t := by
  simp [String.ext_iff]

/-- Literals with a text between them are found again. -/
theorem intercalate_quoted_inj {sep : String} {vs ws : List String} (hsep : sep.toList ≠ [])
    (hvs : vs ≠ []) (hws : ws ≠ [])
    (h : sep.intercalate (vs.map quoted) = sep.intercalate (ws.map quoted)) : vs = ws := by
  have hlists := congrArg String.toList h
  simp only [String.toList_intercalate, List.map_map] at hlists
  exact intercalate_inj hsep hvs hws (fun _ _ _ _ => Json.quoted_append_inj) hlists

namespace TypeScript
variable {a b : TypeExpr} {s t : String} {values : List String}

/-! ### Types in TypeScript -/

/-- The last character tells literals, arrays and records from each other and from names. -/
def typeSigns : Signs where
  mark := List.getLast?
  marks := [('"', .enum []), (']', .array .unknown), ('>', .map .unknown)]
  words := [("string", .string), ("number", .number), ("boolean", .boolean), ("unknown", .unknown)]

theorem getLast?_union (h : values ≠ []) :
    (" | ".intercalate (values.map quoted)).toList.getLast? = some '"' := by
  induction values with
  | nil => exact (h rfl).elim
  | cons v values ih =>
    cases values with
    | nil => simpa using getLast?_quoted v
    | cons w values =>
      rw [List.map_cons, List.map_cons, String.intercalate_cons_cons]
      exact getLast?_append (ih (List.cons_ne_nil w values))

/-- What stands in front of the brackets of an array. -/
def grouped (s : String) : String := if '|' ∈ s.toList then "(" ++ s ++ ")" else s

theorem type_array (item : TypeExpr) : type (.array item) = grouped (type item) ++ "[]" := by
  change (if '|' ∈ (type item).toList then "(" ++ type item ++ ")[]" else type item ++ "[]") = _
  rw [grouped]
  split
  · simp [String.append_assoc]
  · rfl

theorem mem_grouped_iff : '|' ∈ (grouped s).toList ↔ '|' ∈ s.toList := by
  rw [grouped]
  split <;> simp

/-- Whether there are parentheses shows in the text, as a bar within them is still there. -/
theorem grouped_inj : grouped s = grouped t ↔ s = t := by
  refine ⟨fun h => ?_, fun h => h ▸ rfl⟩
  have hbar : '|' ∈ s.toList ↔ '|' ∈ t.toList := by rw [← mem_grouped_iff, h, mem_grouped_iff]
  by_cases hs : '|' ∈ s.toList
  · rw [grouped, grouped, if_pos hs, if_pos (hbar.mp hs)] at h
    exact enclosed_inj.mp h
  · rwa [grouped, grouped, if_neg hs, if_neg (mt hbar.mpr hs)] at h

theorem read_type (ha : a.IsPlain (Entries.keys typeSigns.words)) :
    typeSigns.read (type a) = a.shell true := by
  cases a with
  | enum values => exact Signs.read_of_mark (getLast?_union ha) rfl
  | named name =>
    refine Signs.read_of_not_mem ?_ ha.2
    intro c hc hmark
    have hletter := ha.1.letters c (List.mem_of_getLast? hc)
    have all : ∀ c ∈ Entries.keys typeSigns.marks, ¬Letter.isAsciiAlnum c := by
      simp [Entries.keys, typeSigns, Letter.isAsciiAlnum]
    exact all c hmark hletter
  | array item =>
    rw [type_array]
    exact Signs.read_of_mark (getLast?_append (c := ']') (by decide)) rfl
  | map value => exact Signs.read_of_mark (getLast?_append (c := '>') (by decide)) rfl
  | _ => rfl

theorem legible_type : Legible (Entries.keys typeSigns.words) true type where
  shell := ⟨typeSigns.read, read_type⟩
  enum hvs hws h := intercalate_quoted_inj (by decide) hvs hws h
  named h := h
  array := by
    intro a b
    rw [type_array, type_array, String.append_left_inj, grouped_inj]
  map := enclosed_inj
  openObject := rfl
  integer _ := rfl

/-! ### Validators -/

/-- The character after the point tells the functions of zod apart that validate parts. -/
def validatorSigns : Signs where
  mark := (·[2]?)
  marks := [('e', .enum []), ('l', .named ""), ('a', .array .unknown), ('r', .map .unknown)]
  words := [("z.string()", .string), ("z.number().int()", .integer), ("z.number()", .number),
    ("z.boolean()", .boolean), ("z.unknown()", .unknown)]

theorem mark_validator {c : Char} {opening : String} (s closing : String)
    (h : opening.toList[2]? = some c) :
    validatorSigns.mark (opening ++ s ++ closing).toList = some c := by
  rw [String.append_assoc]
  exact getElem?_append h

theorem read_validator (a : TypeExpr) : validatorSigns.read (validator a) = a.shell false := by
  cases a with
  | enum values => exact Signs.read_of_mark (c := 'e') (mark_validator _ _ (by decide)) rfl
  | named name => exact Signs.read_of_mark (c := 'l') (mark_validator _ _ (by decide)) rfl
  | array item => exact Signs.read_of_mark (c := 'a') (mark_validator _ _ (by decide)) rfl
  | map value => exact Signs.read_of_mark (c := 'r') (mark_validator _ _ (by decide)) rfl
  | _ => rfl

theorem legible_validator : Legible [] false validator where
  shell := ⟨validatorSigns.read, fun {a} _ => read_validator a⟩
  enum hvs hws h := intercalate_quoted_inj (by decide) hvs hws (enclosed_inj.mp h)
  named h := (String.append_left_inj _).mp (enclosed_inj.mp h)
  array := enclosed_inj
  map := enclosed_inj
  openObject := rfl
  integer h := nomatch h

end TypeScript

namespace Python
variable {a b : TypeExpr}

/-! ### Types in Python -/

/-- Where the last character is a bracket, the first one tells what is in front of its brackets. -/
def typeSigns : Signs where
  mark s := match s.getLast? with
    | some ']' => s[0]?
    | _ => none
  marks := [('L', .enum []), ('l', .array .unknown), ('d', .map .unknown)]
  words := [("str", .string), ("int", .integer), ("float", .number), ("bool", .boolean), ("Any", .unknown)]

theorem mark_bracketed {c : Char} {opening : String} (s : String) (h : opening.toList[0]? = some c) :
    typeSigns.mark (opening ++ s ++ "]").toList = some c := by
  have hlast : (opening ++ s ++ "]").toList.getLast? = some ']' := getLast?_append (by decide)
  simp only [typeSigns, hlast]
  rw [String.append_assoc]
  exact getElem?_append h

/-- A text that ends in another character is a name, if it is no word. -/
theorem read_of_getLast? {c : Char} {s : String} (hlast : s.toList.getLast? = some c) (hc : c ≠ ']')
    (hs : s ∉ Entries.keys typeSigns.words) : typeSigns.read s = .named "" := by
  refine Signs.read_of_not_mem ?_ hs
  have hmark : typeSigns.mark s.toList = none := by
    simp only [typeSigns, hlast]
    split
    · rename_i h
      exact (hc (Option.some.inj h)).elim
    · rfl
  simp [hmark]

/-- Only names are written in two ways. -/
theorem legible_typeWith {words : List String} {quoteNames : Bool}
    (hname : ∀ {name}, Identifier.IsWord name → name ∉ words →
      typeSigns.read (typeWith quoteNames (.named name)) = .named "") :
    Legible words false (typeWith quoteNames) where
  shell := by
    refine ⟨typeSigns.read, fun {a} ha => ?_⟩
    cases a with
    | enum values => exact Signs.read_of_mark (c := 'L') (mark_bracketed _ (by decide)) rfl
    | named name => exact hname ha.1 ha.2
    | array item => exact Signs.read_of_mark (c := 'l') (mark_bracketed _ (by decide)) rfl
    | map value => exact Signs.read_of_mark (c := 'd') (mark_bracketed _ (by decide)) rfl
    | _ =>
      rw [typeWith]
      rfl
  enum hvs hws h := intercalate_quoted_inj (by decide) hvs hws (enclosed_inj.mp h)
  named h := by
    cases quoteNames with
    | false => exact h
    | true => exact Json.quoted_inj.mp h
  array := enclosed_inj
  map := enclosed_inj
  openObject := by
    rw [typeWith, typeWith, typeWith]
    rfl
  integer h := nomatch h

theorem legible_annotation : Legible (Entries.keys typeSigns.words) false annotation := by
  refine legible_typeWith fun {name} hword hname => ?_
  obtain ⟨c, hfirst, -⟩ := hword.first
  have hne : name.toList ≠ [] := by
    intro hnil
    simp [hnil] at hfirst
  refine read_of_getLast? (List.getLast?_eq_some_getLast hne) ?_ hname
  intro hlast
  have hletter := hword.letters _ (List.getLast_mem hne)
  rw [hlast] at hletter
  exact absurd hletter (by decide)

/-- A name in quotes is no word. -/
theorem legible_eager : Legible [] false eager := by
  refine legible_typeWith fun {name} _ _ => ?_
  refine read_of_getLast? (getLast?_quoted name) (by decide) fun hword => ?_
  have hlast := getLast?_quoted name
  have all : ∀ s ∈ Entries.keys typeSigns.words, s.toList.getLast? ≠ some '"' := by decide
  exact all _ hword hlast

end Python

/-! ### All renderers -/

/-- How types are printed. -/
inductive Renderer where
  /-- Types in TypeScript. -/
  | type
  /-- Validators of zod. -/
  | validator
  /-- Types in Python, where they are not evaluated. -/
  | annotation
  /-- Types in Python, where they are evaluated on import. -/
  | eager

namespace Renderer
variable {a b : TypeExpr}

def write : Renderer → TypeExpr → String
  | type => TypeScript.type
  | validator => TypeScript.validator
  | annotation => Python.annotation
  | eager => Python.eager

/-- The words that a name would be taken for. Where names are not written bare, there are none. -/
def words : Renderer → List String
  | type => ["string", "number", "boolean", "unknown"]
  | annotation => ["str", "int", "float", "bool", "Any"]
  | _ => []

/-- Only TypeScript has no type for integers. -/
def mergesIntegers : Renderer → Bool
  | type => true
  | _ => false

theorem legible (r : Renderer) : Legible r.words r.mergesIntegers r.write := by
  cases r with
  | type => exact TypeScript.legible_type
  | validator => exact TypeScript.legible_validator
  | annotation => exact Python.legible_annotation
  | eager => exact Python.legible_eager

/-- Types are printed alike exactly if they are the same, up to open objects and merged integers. -/
theorem write_eq_iff (r : Renderer) (ha : a.IsPlain r.words) (hb : b.IsPlain r.words) :
    r.write a = r.write b ↔ a.identified r.mergesIntegers = b.identified r.mergesIntegers := by
  constructor
  · exact r.legible.identified_eq ha hb
  · intro h
    rw [← r.legible.write_identified a, h, r.legible.write_identified]

/-- A bar in a literal is not taken for one between literals, nor an array of maps for a map to arrays. -/
theorem write_nested_ne :
    type.write (.array (.enum ["a\" | \"b"])) ≠ type.write (.array (.enum ["a", "b"])) ∧
    type.write (.array (.map (.named "Pet"))) ≠ type.write (.map (.array (.named "Pet"))) := by
  have hpet : (TypeExpr.named "Pet").IsPlain type.words :=
    ⟨⟨⟨'P', by decide, by decide⟩, List.all_eq_true.mp (by decide)⟩, by decide⟩
  have hliterals (v : String) (vs : List String) :
      (TypeExpr.array (.enum (v :: vs))).IsPlain type.words := List.cons_ne_nil v vs
  constructor
  · exact mt (write_eq_iff type (hliterals _ _) (hliterals _ _)).mp (by decide)
  · exact mt (write_eq_iff (a := .array (.map (.named "Pet"))) (b := .map (.array (.named "Pet"))) type
      hpet hpet).mp (by decide)

end Renderer
end ClientGen
