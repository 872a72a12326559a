import ClientGen.Proofs.Code
import ClientGen.Proofs.Types
import ClientGen.Proofs.Types.Printed

/-! What the texts of types name. Beside the words of the language, that is what the types mention, and in a
validator it is the constants for that. -/
namespace ClientGen
open Code
open Identifier (IsWord)
variable {t : TypeExpr} {a : String} {P R : String → Prop} {whole : Bool}

theorem Identifier.IsWord.isInWord (h : IsWord a) : ∀ c ∈ a.toList, isInWord c := fun c hc =>
  isInWord_iff.mpr (.inl (h.letters c hc))

namespace TypeScript

/-- The words in the texts of types. -/
def typeWords : List String := ["string", "number", "boolean", "Record", "unknown"]

/-- The words in the texts of validators. -/
def validatorWords : List String := ["z"]

theorem prints_type (hwords : ∀ a ∈ typeWords, P a) (h : ∀ a, t.Mentions a → IsWord a ∧ P a)
    (hR : ∀ a, R a) : Prints P R false (type t) := by
  induction t with
  | enum values =>
    refine prints_intercalate (prints_marks (by decide)) (by decide) ?_
    exact List.forall_mem_map.mpr fun v _ => prints_quoted hR v
  | array item ih =>
    have hitem := ih fun a ha => h a (.array ha)
    have hgrouped : Prints P R false (grouped (type item)) := by
      rw [grouped]
      split
      · exact ((prints_marks (by decide)).append hitem).closed (by decide)
      · exact hitem
    rw [type_array]
    exact hgrouped.closed (by decide)
  | named name => exact prints_word (h name .named).1.isInWord (h name .named).2
  | map value ih =>
    have hvalue := ih fun a ha => h a (.map ha)
    exact hvalue.enclosed hwords (by decide) (by decide)
  | _ => exact prints_fixed (by decide) hwords

theorem isInWord_schemaConst (h : IsWord a) : ∀ c ∈ (schemaConst a).toList, isInWord c := by
  rw [schemaConst, String.toList_append]
  exact List.forall_mem_append.mpr ⟨h.isInWord, List.all_eq_true.mp (by decide)⟩

theorem prints_validator (hwords : ∀ a ∈ validatorWords, P a)
    (h : ∀ a, t.Mentions a → IsWord a ∧ P (schemaConst a)) (hR : ∀ a, R a) : Prints P R true (validator t) := by
  induction t with
  | enum values =>
    have hvalues : Prints P R false (", ".intercalate (values.map quoted)) :=
      prints_intercalate (prints_marks (by decide)) (by decide)
        (List.forall_mem_map.mpr fun v _ => prints_quoted hR v)
    exact hvalues.enclosed hwords (by decide) (by decide)
  | array item ih =>
    have hitem := ih fun a ha => h a (.array ha)
    exact hitem.enclosed hwords (by decide) (by decide)
  | named name =>
    have hname : Prints P R false (schemaConst name) :=
      prints_word (isInWord_schemaConst (h name .named).1) (h name .named).2
    exact hname.enclosed hwords (by decide) (by decide)
  | map value ih =>
    have hvalue := ih fun a ha => h a (.map ha)
    exact hvalue.enclosed hwords (by decide) (by decide)
  | _ => exact prints_fixed (by decide) hwords

/-- A type names nothing but what it mentions. -/
theorem names_type (h : ∀ a, t.Mentions a → IsWord a) :
    ∀ a ∈ names (type t), a ∈ typeWords ∨ t.Mentions a := by
  have hprints : Prints (fun a => a ∈ typeWords ∨ t.Mentions a) (fun _ => True) false (type t) :=
    prints_type (fun _ => .inl) (fun a ha => ⟨h a ha, .inr ha⟩) fun _ => trivial
  exact fun _ => hprints.of_mem_names

/-- A validator names the constants for that. -/
theorem names_validator (h : ∀ a, t.Mentions a → IsWord a) :
    ∀ a ∈ names (validator t), a ∈ validatorWords ∨ ∃ b, t.Mentions b ∧ a = schemaConst b := by
  have hprints : Prints (fun a => a ∈ validatorWords ∨ ∃ b, t.Mentions b ∧ a = schemaConst b) (fun _ => True) true
      (validator t) :=
    prints_validator (fun _ => .inl) (fun b hb => ⟨h b hb, .inr ⟨b, hb, rfl⟩⟩) fun _ => trivial
  exact fun _ => hprints.of_mem_names

end TypeScript

namespace Python

/-- The words in the texts of types. -/
def typeWords : List String := ["str", "Literal", "int", "float", "bool", "list", "dict", "Any"]

/-- In quotes, declared types are referred to, and else they are named. -/
theorem prints_typeWith {quoteNames : Bool} (hwords : ∀ a ∈ typeWords, P a)
    (h : ∀ a, t.Mentions a → IsWord a ∧ if quoteNames then R a else P a) :
    Prints P R false (typeWith quoteNames t) := by
  induction t with
  | enum values => exact prints_literal (hwords _ (by decide)) values
  | array item ih =>
    have hitem := ih fun a ha => h a (.array ha)
    exact hitem.enclosed hwords (by decide) (by decide)
  | named name =>
    obtain ⟨hword, hname⟩ := h name .named
    cases quoteNames with
    | true => exact prints_reference hword.isInWord hname
    | false => exact prints_word hword.isInWord hname
  | map value ih =>
    have hvalue := ih fun a ha => h a (.map ha)
    exact hvalue.enclosed hwords (by decide) (by decide)
  | _ =>
    rw [typeWith]
    exact prints_fixed (by decide) hwords

/-- An annotation names nothing but what its type mentions, and refers to nothing. -/
theorem names_annotated (h : ∀ a, t.Mentions a → IsWord a) :
    (∀ a ∈ names ( annotation t), a ∈ typeWords ∨ t.Mentions a) ∧ references ( annotation t) = [] := by
  have hprints : Prints (fun a => a ∈ typeWords ∨ t.Mentions a) (fun _ => False) false ( annotation t) :=
    prints_typeWith (fun _ => .inl) fun a ha => ⟨h a ha, .inr ha⟩
  exact ⟨fun _ => hprints.of_mem_names, List.eq_nil_iff_forall_not_mem.mpr fun _ => hprints.of_mem_references⟩

/-- What is evaluated on import names words of the language alone, and refers to what its type mentions. -/
theorem names_evaluated (h : ∀ a, t.Mentions a → IsWord a) :
    (∀ a ∈ names (eager t), a ∈ typeWords) ∧ ∀ a ∈ references (eager t), t.Mentions a := by
  have hprints : Prints (· ∈ typeWords) t.Mentions false (eager t) :=
    prints_typeWith (fun _ => id) fun a ha => ⟨h a ha, ha⟩
  exact ⟨fun _ => hprints.of_mem_names, fun _ => hprints.of_mem_references⟩

end Python
end ClientGen
