import ClientGen.TypeScript.Declaration
import ClientGen.Proofs.Literal.Lists
import ClientGen.Proofs.Package.Fields
import ClientGen.Proofs.Types.Named

/-! What declarations name. In the lines of a declared type and of its validator, in both languages, there is no
name but that of the schema itself and those that its declaration mentions. -/
namespace ClientGen
open Code
open Identifier (IsWord)
variable {d : Declaration} {v : SchemaView} {fields : List FieldView} {f : FieldView} {o : Options}
  {a name t : String} {P R Q : String → Prop} {whole : Bool} {m : Model} {s : Api.SchemaRecord}

/-! ### Views -/

/-- What holds of every text of a type in a view. -/
def SchemaBodyView.Texts (Q : String → Prop) : SchemaBodyView → Prop
  | object fields additional => (∀ f ∈ fields, Q f.type) ∧ ∀ value ∈ additional, Q value
  | enum _ => True
  | synonym target => Q target

/-- The texts in a view are those of types that mention what the declaration mentions. -/
theorem SchemaBodyView.texts_of {write : TypeWriter}
    (h : ∀ t : TypeExpr, (∀ a, t.Mentions a → d.Mentions a) → Q (write t)) :
    (SchemaBodyView.of write d).Texts Q := by
  cases d with
  | object fields additional =>
    refine ⟨List.forall_mem_map.mpr fun f hf => h _ fun a => .field hf, fun value hvalue => ?_⟩
    obtain ⟨t, rfl, rfl⟩ := Option.map_eq_some_iff.mp hvalue
    exact h t fun a => .additional
  | enum values => trivial
  | synonym type => exact h type fun a => .synonym

/-- The name of a schema, and the names that its declaration mentions. -/
def Model.Uses (m : Model) (s : Api.SchemaRecord) (a : String) : Prop :=
  a = s.name ∨ (m.types.declare s).Mentions a

/-! ### TypeScript -/

namespace TypeScript

theorem prints_key (name : String) (ht : t ∈ labelMarks) : Prints P R whole (key name ++ t) := by
  rcases key_cases name with ⟨hid, hkey⟩ | ⟨-, hkey⟩
  · rw [hkey]
    refine prints_label (fun c hc => isInWord_iff.mpr ?_) ht
    exact (hid.letters c hc).imp_right (.imp_right .inl)
  · rw [hkey]
    exact prints_quotedLabel name ht

/-- The words in the declarations of types. -/
def declarationWords : List String := ["export", "interface", "type"] ++ typeWords

theorem prints_typeField (hf : Prints P R false f.type) :
    Prints P R false (key f.name ++ (if f.required then "" else "?") ++ ": " ++ f.type ++ ";") := by
  have hlabel : Prints P R true (key f.name ++ (if f.required then "" else "?") ++ ": ") := by
    split
    · rw [String.append_empty]
      exact prints_key f.name (by decide)
    · exact (prints_key f.name (by decide)).append (prints_marks (by decide))
  exact (hlabel.append hf).closed (by decide)

theorem prints_typeDeclaration (hwords : ∀ a ∈ declarationWords, P a) (hname : IsWord v.name ∧ P v.name)
    (hR : ∀ a, R a) (hv : v.body.Texts (Prints P R false)) : ∀ l ∈ typeDeclaration v, Prints P R false l := by
  have hself : Prints P R false v.name := prints_word hname.1.isInWord hname.2
  have hsynonym {target : String} (h : Prints P R false target) :
      Prints P R false ("export type " ++ v.name ++ " = " ++ target ++ ";") := by
    have hhead : Prints P R true ("export type " ++ v.name ++ " = ") :=
      hself.enclosed hwords (by decide) (by decide)
    exact (hhead.append h).closed (by decide)
  rw [typeDeclaration]
  split
  · rename_i fields additional hbody
    rw [hbody] at hv
    have hhead : Prints P R false ("export interface " ++ v.name ++ " \x7b") :=
      hself.enclosed hwords (by decide) (by decide)
    have hopen : ∀ l ∈ (if additional.isSome then ["[key: string]: unknown;"] else []), Prints P R false l := by
      split
      · exact List.forall_mem_singleton.mpr (prints_fixed (by decide) hwords)
      · exact nofun
    refine List.forall_mem_cons.mpr ⟨hhead, List.forall_mem_append.mpr ⟨prints_indent ?_, ?_⟩⟩
    · exact List.forall_mem_append.mpr
        ⟨List.forall_mem_map.mpr fun f hf => prints_typeField (hv.1 f hf), hopen⟩
    · exact List.forall_mem_singleton.mpr (prints_marks (by decide))
  · rename_i values _
    have hvalues : Prints P R false (type (.enum values)) :=
      prints_type (fun a ha => hwords a (List.mem_append_right _ ha)) nofun hR
    exact List.forall_mem_singleton.mpr (hsynonym hvalues)
  · rename_i target hbody
    rw [hbody] at hv
    exact List.forall_mem_singleton.mpr (hsynonym hv)

/-- The words in the declarations of validators. -/
def validatorDeclarationWords : List String := ["export", "const"] ++ validatorWords

theorem prints_validatorField (hf : Prints P R false f.type) :
    Prints P R false (key f.name ++ ": " ++ f.type ++ (if f.required then "" else ".optional()") ++ ",") := by
  have hvalue : Prints P R false (key f.name ++ ": " ++ f.type) := (prints_key f.name (by decide)).append hf
  split
  · rw [String.append_empty]
    exact hvalue.closed (by decide)
  · have hoptional : Prints P R true (key f.name ++ ": " ++ f.type ++ ".optional()") :=
      hvalue.closed (by decide)
    exact hoptional.append (prints_marks (by decide))

theorem prints_extra (additional : Option String) : (∀ value ∈ additional, Prints P R false value) →
    Prints P R false (match additional with
      | some value => "  .catchall(" ++ value ++ ");"
      | none => "  .passthrough();") := by
  cases additional with
  | none => exact fun _ => prints_marks (by decide)
  | some value =>
    intro h
    exact ((prints_marks (by decide)).append (h value rfl)).closed (by decide)

theorem prints_validatorDeclaration (hwords : ∀ a ∈ validatorDeclarationWords, P a)
    (hname : IsWord v.name ∧ P v.name ∧ P (schemaConst v.name)) (hR : ∀ a, R a)
    (hv : v.body.Texts (Prints P R false)) : ∀ l ∈ validatorDeclaration v, Prints P R false l := by
  have hhead : Prints P R true ("export const " ++ schemaConst v.name ++ ": z.ZodType<" ++ v.name ++ "> = ") := by
    have hconst : Prints P R false (schemaConst v.name) := prints_word (isInWord_schemaConst hname.1) hname.2.2
    have hself : Prints P R false v.name := prints_word hname.1.isInWord hname.2.1
    exact ((hconst.enclosed hwords (by decide) (by decide)).append hself).closed (by decide)
  rw [validatorDeclaration]
  split
  · rename_i fields additional hbody
    rw [hbody] at hv
    simp only [List.forall_mem_append, List.forall_mem_cons]
    refine ⟨⟨⟨⟨?_, prints_marks (by decide), nofun⟩, prints_indent ?_⟩, prints_marks (by decide), nofun⟩, ?_, nofun⟩
    · exact hhead.append (prints_fixed (by decide) hwords)
    · exact List.forall_mem_map.mpr fun f hf => prints_validatorField (hv.1 f hf)
    · exact prints_extra additional hv.2
  · rename_i values _
    have hvalues : Prints P R false (", ".intercalate (values.map quoted)) :=
      prints_intercalate (prints_marks (by decide)) (by decide)
        (List.forall_mem_map.mpr fun v _ => prints_quoted hR v)
    exact List.forall_mem_singleton.mpr
      (((hhead.append (prints_fixed (by decide) hwords)).append hvalues).closed (by decide))
  · rename_i target hbody
    rw [hbody] at hv
    exact List.forall_mem_singleton.mpr ((hhead.append hv).closed (by decide))

/-- A declared type names nothing but what its schema uses. -/
theorem names_typeDeclaration (h : ∀ a, m.Uses s a → IsWord a) :
    ∀ l ∈ typeDeclaration (.of m.types type s), ∀ a ∈ names l, a ∈ declarationWords ∨ m.Uses s a := by
  have htexts : (SchemaView.of m.types type s).body.Texts
      (Prints (fun a => a ∈ declarationWords ∨ m.Uses s a) (fun _ => True) false) :=
    SchemaBodyView.texts_of fun t ht => prints_type (fun a ha => .inl (List.mem_append_right _ ha))
      (fun a ha => ⟨h a (.inr (ht a ha)), .inr (.inr (ht a ha))⟩) fun _ => trivial
  intro l hl a
  exact (prints_typeDeclaration (fun _ => .inl) ⟨h _ (.inl rfl), .inr (.inl rfl)⟩ (fun _ => trivial) htexts l
    hl).of_mem_names

/-- A validator names its own type, and the constants for what its schema uses. -/
theorem names_validatorDeclaration (h : ∀ a, m.Uses s a → IsWord a) :
    ∀ l ∈ validatorDeclaration (.of m.types validator s), ∀ a ∈ names l,
      a ∈ validatorDeclarationWords ∨ a = s.name ∨ ∃ b, m.Uses s b ∧ a = schemaConst b := by
  have htexts : (SchemaView.of m.types validator s).body.Texts (Prints (fun a =>
      a ∈ validatorDeclarationWords ∨ a = s.name ∨ ∃ b, m.Uses s b ∧ a = schemaConst b) (fun _ => True) false) :=
    SchemaBodyView.texts_of fun t ht => (prints_validator (fun a ha => .inl (List.mem_append_right _ ha))
      (fun b hb => ⟨h b (.inr (ht b hb)), .inr (.inr ⟨b, .inr (ht b hb), rfl⟩)⟩) fun _ => trivial).weaken
  have hname := h s.name (.inl rfl)
  intro l hl a
  exact (prints_validatorDeclaration (fun _ => .inl) ⟨hname, .inr (.inl rfl), .inr (.inr ⟨s.name, .inl rfl, rfl⟩)⟩
    (fun _ => trivial) htexts l hl).of_mem_names

end TypeScript

/-! ### Python -/

namespace Python

/-- The words in the declarations of types. -/
def declarationWords : List String := ["class", "TypedDict", "NotRequired"] ++ typeWords

/-- The words in the declarations of models. -/
def modelWords : List String :=
  ["class", "BaseModel", "model_config", "ConfigDict", "populate_by_name", "True", "extra", "Field", "alias", "default",
    "None"] ++ typeWords

theorem prints_descriptionDoc (hR : ∀ a, R a) (description : Option String) :
    ∀ l ∈ descriptionDoc o description, Prints P R false l := by
  fun_cases descriptionDoc o description with
  | case1 => exact nofun
  | case2 => exact nofun
  | case3 text _ =>
    rw [Options.docs]
    split
    · exact nofun
    · have hescaped : Python.IsEscaped (docText text).toList := toList_docText text ▸ isEscaped_escape _
      exact List.forall_mem_cons.mpr
        ⟨prints_docstring hescaped hR, List.forall_mem_singleton.mpr prints_empty⟩

theorem prints_fieldType (hword : P "NotRequired") (hf : Prints P R false f.type) : Prints P R false (fieldType f) := by
  rw [fieldType]
  split
  · exact hf
  · have hwords : ∀ a ∈ ["NotRequired"], P a := List.forall_mem_singleton.mpr hword
    have hhead : Prints P R true "NotRequired[" := prints_fixed (by decide) hwords
    exact (hhead.append hf).closed (by decide)

/-- What is evaluated on import refers to the schema by its own name, too. -/
theorem prints_dictionaryCall (hwords : ∀ a ∈ declarationWords, P a) (hname : IsWord name ∧ P name ∧ R name)
    (hfields : ∀ f ∈ fields, Prints P R false f.type) : ∀ l ∈ dictionaryCall name fields, Prints P R false l := by
  have hself : Prints P R false name := prints_word hname.1.isInWord hname.2.1
  have hreference : Prints P R true (quoted name) := prints_reference hname.1.isInWord hname.2.2
  have hquoted : Prints P R false ("    " ++ quoted name ++ ",") :=
    ((prints_marks (by decide)).append hreference).append (prints_marks (by decide))
  simp only [dictionaryCall, List.forall_mem_append, List.forall_mem_cons]
  refine ⟨⟨⟨?_, hquoted, prints_marks (by decide), nofun⟩, prints_indent (List.forall_mem_map.mpr fun f hf => ?_)⟩,
    prints_marks (by decide), prints_marks (by decide), nofun⟩
  · exact hself.append_mark (prints_fixed (by decide) hwords) (by decide)
  · have htype : Prints P R false (fieldType f) := prints_fieldType (hwords _ (by decide)) (hfields f hf)
    exact ((prints_quotedLabel f.name (by decide)).append htype).closed (by decide)

theorem isInWord_of_isIdentifier (h : isIdentifier name) : ∀ c ∈ name.toList, isInWord c := by
  rw [isIdentifier] at h
  split at h
  · cases h
  · rename_i c rest hname
    simp only [Bool.and_eq_true, Bool.or_eq_true, beq_iff_eq, List.all_eq_true] at h
    obtain ⟨⟨hc, hrest⟩, -⟩ := h
    rw [hname]
    refine List.forall_mem_cons.mpr ⟨isInWord_iff.mpr ?_, fun d hd => isInWord_iff.mpr ?_⟩
    · refine hc.imp (fun hc => ?_) .inl
      simp only [Letter.isAsciiAlnum, Bool.or_eq_true]
      tauto
    · exact (hrest d hd).imp_right .inl

theorem prints_dictionaryClass (hwords : ∀ a ∈ declarationWords, P a) (hname : IsWord v.name ∧ P v.name)
    (hR : ∀ a, R a) (hkeys : ∀ f ∈ fields, isIdentifier f.name) (hfields : ∀ f ∈ fields, Prints P R false f.type) :
    ∀ l ∈ dictionaryClass o v fields, Prints P R false l := by
  have hself : Prints P R false v.name := prints_word hname.1.isInWord hname.2
  refine List.forall_mem_cons.mpr ⟨?_, prints_indent (List.forall_mem_append.mpr ⟨prints_descriptionDoc hR _, ?_⟩)⟩
  · exact hself.enclosed hwords (by decide) (by decide)
  · exact List.forall_mem_map.mpr fun f hf => (prints_label (isInWord_of_isIdentifier (hkeys f hf)) (by decide)).append
      (prints_fieldType (hwords _ (by decide)) (hfields f hf))

theorem isInWord_ident (name : String) : ∀ c ∈ (ident name).toList, isInWord c := fun c hc => by
  rw [isInWord_iff]
  rcases inner_ident name c hc with (h | h) | h
  · exact .inl h
  · exact .inr (.inr (.inr h))
  · exact .inr (.inl h)

theorem prints_modelField (hwords : ∀ a ∈ modelWords, P a) (hR : ∀ a, R a) {f : ModelField}
    (hident : ∀ c ∈ f.ident.toList, isInWord c) (hf : Prints P R false f.annotation) : Prints P R false f.print := by
  have hfield : Prints P R false (f.ident ++ ": " ++ f.annotation) := (prints_label hident (by decide)).append hf
  have halias {head : String} (hhead : Prints P R true head) (hmark : startsWithMark head) (name : String) :
      Prints P R false (f.ident ++ ": " ++ f.annotation ++ (head ++ quoted name ++ ")")) :=
    hfield.append_mark ((hhead.append (prints_quoted hR name)).append (prints_marks (by decide)))
      (startsWithMark_append (startsWithMark_append hmark))
  rw [ModelField.print]
  generalize f.required = required
  generalize f.wireName.filter (!·.isEmpty) = wireName
  cases required <;> cases wireName
  · exact hfield.append_mark (prints_fixed (by decide) hwords) (by decide)
  · exact halias (prints_fixed (by decide) hwords) (by decide) _
  · change Prints P R false (f.ident ++ ": " ++ f.annotation ++ "")
    rwa [String.append_empty]
  · exact halias (prints_fixed (by decide) hwords) (by decide) _

theorem prints_modelClass (hwords : ∀ a ∈ modelWords, P a) (hname : IsWord v.name ∧ P v.name) (hR : ∀ a, R a)
    (additional : Option String) (hfields : ∀ f ∈ fields, Prints P R false f.type) :
    ∀ l ∈ modelClass o v fields additional, Prints P R false l := by
  have hself : Prints P R false v.name := prints_word hname.1.isInWord hname.2
  have hclass : Prints P R false ("class " ++ v.name ++ "(BaseModel):") :=
    hself.enclosed hwords (by decide) (by decide)
  have hconfig : Prints P R false ("model_config = ConfigDict(populate_by_name=True"
      ++ (if additional.isSome then ", extra=\"allow\"" else "") ++ ")") := by
    have hstart : Prints P R false "model_config = ConfigDict(populate_by_name=True" :=
      prints_fixed (by decide) hwords
    have hextra : Prints P R true (", extra=" ++ quoted "allow") :=
      (prints_fixed (by decide) hwords).append (prints_quoted hR "allow")
    split
    · exact (hstart.append_mark hextra (by decide)).append (prints_marks (by decide))
    · exact hstart.closed (by decide)
  refine List.forall_mem_cons.mpr ⟨hclass, prints_indent ?_⟩
  simp only [List.forall_mem_append, List.forall_mem_cons]
  refine ⟨⟨prints_descriptionDoc hR _, hconfig, prints_empty, nofun⟩, ?_⟩
  exact List.forall_mem_map.mpr fun f hf =>
    prints_modelField hwords hR (f := .of f) (isInWord_ident f.name) (hfields f hf)

/-- The texts of types in a view, whether they are evaluated on import or not. -/
theorem texts_of {words : List String} {write : TypeWriter} (hwrite : write = annotation ∨ write = eager)
    (hwords : ∀ a ∈ words, P a) (htypes : typeWords ⊆ words) (h : ∀ a, m.Uses s a → IsWord a ∧ P a ∧ R a) :
    (SchemaView.of m.types write s).body.Texts (Prints P R false) := by
  have hwords : ∀ a ∈ typeWords, P a := fun a ha => hwords a (htypes ha)
  refine SchemaBodyView.texts_of fun t ht => ?_
  have hparts : ∀ a, t.Mentions a → IsWord a ∧ P a ∧ R a := fun a ha => h a (.inr (ht a ha))
  rcases hwrite with rfl | rfl
  · exact prints_typeWith hwords fun a ha => ⟨(hparts a ha).1, (hparts a ha).2.1⟩
  · exact prints_typeWith hwords fun a ha => ⟨(hparts a ha).1, (hparts a ha).2.2⟩

/-- Whether the types of a declaration stand in a class, where they are not evaluated. -/
def isClass (d : Declaration) : Bool := isModel d && !needsCall d

theorem isModel_of_object {write : TypeWriter} {additional : Option String}
    (hbody : SchemaBodyView.of write d = .object fields additional) : isModel d := by
  cases d with
  | object => rfl
  | _ => cases hbody

theorem isIdentifier_of_not_needsCall {write : TypeWriter} {additional : Option String}
    (hbody : SchemaBodyView.of write d = .object fields additional) (h : ¬needsCall d) :
    isClass d ∧ ∀ f ∈ fields, isIdentifier f.name := by
  cases d with
  | object declared extra =>
    cases hbody
    have hkeys : ∀ f ∈ declared, isIdentifier f.name := by simpa [needsCall] using h
    exact ⟨by simpa [isClass, isModel] using h, List.forall_mem_map.mpr hkeys⟩
  | _ => cases hbody

theorem prints_alias {target : String} (hname : IsWord name ∧ P name) (h : Prints P R false target) :
    Prints P R false (name ++ " = " ++ target) :=
  ((prints_word hname.1.isInWord hname.2).closed (by decide)).append h

theorem prints_typeDeclaration (hwords : ∀ a ∈ declarationWords, P a)
    (h : ∀ a, m.Uses s a → IsWord a ∧ P a ∧ R a) (hR : isClass (m.types.declare s) → ∀ a, R a) :
    ∀ l ∈ typeDeclaration m o s, Prints P R false l := by
  have htexts := texts_of (ite_eq_or_eq (isEager (m.types.declare s) = true) eager annotation).symm hwords
    (List.subset_append_right _ _) h
  obtain ⟨hname, hself, hreference⟩ := h s.name (.inl rfl)
  rw [typeDeclaration]
  split
  · rename_i fields additional hbody
    rw [hbody] at htexts
    split
    · exact prints_dictionaryCall hwords ⟨hname, hself, hreference⟩ htexts.1
    · obtain ⟨hclass, hkeys⟩ := isIdentifier_of_not_needsCall hbody ‹_›
      exact prints_dictionaryClass hwords ⟨hname, hself⟩ (hR hclass) hkeys htexts.1
  · rename_i values _
    exact List.forall_mem_singleton.mpr (prints_alias ⟨hname, hself⟩ (prints_literal (hwords _ (by decide)) values))
  · rename_i target hbody
    rw [hbody] at htexts
    exact List.forall_mem_singleton.mpr (prints_alias ⟨hname, hself⟩ htexts)

theorem prints_validatorDeclaration (hwords : ∀ a ∈ modelWords, P a)
    (h : ∀ a, m.Uses s a → IsWord a ∧ P a ∧ R a) (hR : isModel (m.types.declare s) → ∀ a, R a) :
    ∀ l ∈ validatorDeclaration m o s, Prints P R false l := by
  have htexts := texts_of (ite_eq_or_eq (isModel (m.types.declare s) = true) annotation eager) hwords
    (List.subset_append_right _ _) h
  obtain ⟨hname, hself, -⟩ := h s.name (.inl rfl)
  rw [validatorDeclaration]
  split
  · rename_i fields additional hbody
    rw [hbody] at htexts
    refine prints_modelClass hwords ⟨hname, hself⟩ (hR ?_) additional htexts.1
    exact isModel_of_object hbody
  · rename_i values _
    exact List.forall_mem_singleton.mpr (prints_alias ⟨hname, hself⟩ (prints_literal (hwords _ (by decide)) values))
  · rename_i target hbody
    rw [hbody] at htexts
    exact List.forall_mem_singleton.mpr (prints_alias ⟨hname, hself⟩ htexts)

/-- A declared type names nothing but what its schema uses. Outside of classes, it does not refer to more than that
by literals, either. -/
theorem names_typeDeclaration (h : ∀ a, m.Uses s a → IsWord a) : ∀ l ∈ typeDeclaration m o s,
    (∀ a ∈ names l, a ∈ declarationWords ∨ m.Uses s a) ∧
      (isClass (m.types.declare s) = false → ∀ a ∈ references l, m.Uses s a) := by
  have hprints : ∀ l ∈ typeDeclaration m o s, Prints (fun a => a ∈ declarationWords ∨ m.Uses s a)
      (fun a => isClass (m.types.declare s) = false → m.Uses s a) false l :=
    prints_typeDeclaration (fun _ => .inl) (fun a ha => ⟨h a ha, .inr ha, fun _ => ha⟩) (by simp +contextual)
  intro l hl
  have hl := hprints l hl
  exact ⟨fun _ => hl.of_mem_names, fun hclass _ ha => hl.of_mem_references ha hclass⟩

/-- So does a model, or an alias in its place. -/
theorem names_validatorDeclaration (h : ∀ a, m.Uses s a → IsWord a) : ∀ l ∈ validatorDeclaration m o s,
    (∀ a ∈ names l, a ∈ modelWords ∨ m.Uses s a) ∧
      (isModel (m.types.declare s) = false → ∀ a ∈ references l, m.Uses s a) := by
  have hprints : ∀ l ∈ validatorDeclaration m o s, Prints (fun a => a ∈ modelWords ∨ m.Uses s a)
      (fun a => isModel (m.types.declare s) = false → m.Uses s a) false l :=
    prints_validatorDeclaration (fun _ => .inl) (fun a ha => ⟨h a ha, .inr ha, fun _ => ha⟩) (by simp +contextual)
  intro l hl
  have hl := hprints l hl
  exact ⟨fun _ => hl.of_mem_names, fun hmodel _ ha => hl.of_mem_references ha hmodel⟩

end Python
end ClientGen
