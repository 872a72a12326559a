import ClientGen.Proofs.Package.Names

/-! Built-in types and the names of declared types. A declaration under the text of a built-in type would
capture every later use of that type. -/
namespace ClientGen
open Identifier (IsWord)
variable {api : Api} {t : MappingTable} {mode : FingerprintMode} {m : Model} {o : Options}
  {target : Target} {files : List SourceFile} {e : TypeExpr} {text : String}

/-- How the types of a target are written. -/
def Target.writers : Target → List (TypeExpr → String)
  | .typescript => [TypeScript.type]
  | .python => [Python.annotation, Python.eager]

/-- The texts of built-in types that a schema may have for its name. -/
def Target.openWords : Target → List String
  | .typescript => ["string", "number", "boolean", "unknown"]
  | .python => []

namespace Identifier

theorem not_isWord_of_mem {c : Char} (hc : c ∈ text.toList) (h : Letter.isAsciiAlnum c = false) :
    ¬ IsWord text := fun hw => by simp [hw.letters c hc] at h

/-- Literals side by side are no word. -/
theorem not_isWord_intercalate (sep : String) (values : List String) :
    ¬ IsWord (sep.intercalate (values.map quoted)) := by
  cases values with
  | nil => exact fun hw => by simpa using hw.first
  | cons value rest =>
    have hquote : '"' ∈ (quoted value).toList := by simp [quoted, Quoted.encode]
    refine not_isWord_of_mem (c := '"') ?_ (by decide)
    cases rest with
    | nil => simpa using hquote
    | cons next rest => simp [hquote]

end Identifier

/-- Only a type that is one word is written like a name. -/
theorem TypeScript.type_of_isWord (he : ∀ a, ¬ e.Mentions a) (hw : IsWord (type e)) :
    type e ∈ ["string", "number", "boolean", "unknown"] := by
  -- A text that holds a bracket, given for the one that is written.
  have bracket (c : Char) (text : String) (hc : c ∈ text.toList) (hletter : Letter.isAsciiAlnum c = false)
      (htext : type e = text) : ¬ IsWord (type e) := htext ▸ Identifier.not_isWord_of_mem hc hletter
  cases e with
  | string | integer | number | boolean | unknown => decide
  | enum values => exact absurd hw (Identifier.not_isWord_intercalate _ values)
  | array item =>
    refine absurd hw (bracket ']' (if '|' ∈ (type item).toList then "(" ++ type item ++ ")[]"
      else type item ++ "[]") ?_ (by decide) rfl)
    split <;> simp
  | named name => exact absurd .named (he name)
  | map value =>
    exact absurd hw (bracket '<' ("Record<string, " ++ type value ++ ">") (by simp) (by decide) rfl)
  | openObject => exact absurd hw (bracket '<' "Record<string, unknown>" (by simp) (by decide) rfl)

theorem Python.typeWith_of_isWord {quoteNames : Bool} (he : ∀ a, ¬ e.Mentions a)
    (hw : IsWord (typeWith quoteNames e)) :
    typeWith quoteNames e ∈ ["str", "int", "float", "bool", "Any"] := by
  have bracket {text : String} (hbracket : '[' ∈ text.toList) : ¬ IsWord text :=
    Identifier.not_isWord_of_mem hbracket (by decide)
  cases e with
  | string | integer | number | boolean | unknown => simp [typeWith]
  | enum values => exact absurd hw (bracket (by simp [typeWith]))
  | array item => exact absurd hw (bracket (by simp [typeWith]))
  | named name => exact absurd .named (he name)
  | map value => exact absurd hw (bracket (by simp [typeWith]))
  | openObject => exact absurd hw (bracket (by simp [typeWith]))

/-- In a package that is generated, a declared type has the text of a built-in type if and only if it is one
of the words that no check refuses. Python has no such word. -/
theorem Api.builtIn_captured_iff (h : api.prepare (some t) mode = .ok (.ready m))
    (hg : m.generate target o = .ok files) : ∀ name ∈ m.typeNames, ∀ write ∈ target.writers,
      (∃ e, (∀ a, ¬ e.Mentions a) ∧ write e = name) ↔ name ∈ target.openWords := by
  intro name hname write hwrite
  have hw : IsWord name := Api.isWord_of_prepare h name hname
  have hfree : target.isTaken m name = false := Model.not_taken_of_generate hg name hname
  cases target with
  | typescript =>
    obtain rfl := List.mem_singleton.mp hwrite
    constructor
    · rintro ⟨e, he, rfl⟩
      exact TypeScript.type_of_isWord he hw
    · intro hopen
      have plain : ∀ word ∈ Target.openWords .typescript,
          ∃ e ∈ [TypeExpr.string, .number, .boolean, .unknown],
            e.name? = none ∧ TypeScript.type e = word := by
        decide
      obtain ⟨e, -, hnone, htext⟩ := plain name hopen
      refine ⟨e, fun a ha => ?_, htext⟩
      rw [TypeExpr.mentions_iff.mp ha] at hnone
      cases hnone
  | python =>
    have builtIn : ["str", "int", "float", "bool", "Any"] ⊆ Python.generatedNames := by decide
    have hgenerated := (Python.isTaken_eq_false_iff.mp hfree).2.1
    refine iff_of_false ?_ List.not_mem_nil
    rintro ⟨e, he, rfl⟩
    have hquote : ∃ quoteNames, write = Python.typeWith quoteNames := by
      simp only [Target.writers, List.mem_cons, List.not_mem_nil, or_false] at hwrite
      rcases hwrite with rfl | rfl
      · exact ⟨false, rfl⟩
      · exact ⟨true, rfl⟩
    obtain ⟨quoteNames, rfl⟩ := hquote
    exact hgenerated (builtIn (Python.typeWith_of_isWord he hw))

/-- Schemas of texts. -/
def Api.ofSchemas (names : List String) : Api :=
  ⟨⟨"t", none, "1"⟩, none, [], names.map fun name => ⟨name, name, none, .plainString⟩⟩

theorem Api.builtIn_captured_pet : ∃ m files,
    (ofSchemas ["string", "Pet"]).prepare (some .empty) .names = .ok (.ready m) ∧
    m.generate .typescript ⟨.flat, none, 30, false⟩ = .ok files ∧ m.typeNames = ["string", "Pet"] ∧
    (∃ e, (∀ a, ¬ e.Mentions a) ∧ TypeScript.type e = "string") ∧
    ¬ ∃ e, (∀ a, ¬ e.Mentions a) ∧ TypeScript.type e = "Pet" := by
  obtain ⟨m, files, hm, hg, hnames⟩ : ∃ m files,
      (ofSchemas ["string", "Pet"]).prepare (some .empty) .names = .ok (.ready m) ∧
      m.generate .typescript ⟨.flat, none, 30, false⟩ = .ok files ∧ m.typeNames = ["string", "Pet"] :=
    ⟨_, _, rfl, rfl, rfl⟩
  have captured := Api.builtIn_captured_iff hm hg
  simp only [hnames, Target.writers, List.mem_cons, List.not_mem_nil, or_false, forall_eq_or_imp,
    forall_eq] at captured
  exact ⟨m, files, hm, hg, hnames, captured.1.mpr (by decide),
    fun hpet => absurd (captured.2.mp hpet) (by decide)⟩

/-- A schema that is declared as `string`, the text of all texts. -/
theorem Api.builtIn_captured_string : ∃ m files,
    (ofSchemas ["string"]).prepare (some .empty) .names = .ok (.ready m) ∧
    m.generate .typescript ⟨.flat, none, 30, false⟩ = .ok files ∧
    ∃ name ∈ m.typeNames, ∃ e, (∀ a, ¬ e.Mentions a) ∧ TypeScript.type e = name :=
  ⟨_, _, rfl, rfl, "string", List.mem_singleton_self _, .string, fun _ => nofun, rfl⟩

end ClientGen
