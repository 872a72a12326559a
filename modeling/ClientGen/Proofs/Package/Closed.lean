import ClientGen.Package
import ClientGen.Proofs.Document.Reading
import ClientGen.Proofs.Extraction.Api
import ClientGen.Proofs.Package.Clients
import ClientGen.Proofs.Package.Named
import ClientGen.Proofs.Package.Names
import ClientGen.Proofs.Package.Python
import ClientGen.Proofs.Package.TypeScript

/-! A generated package declares whatever it mentions, by what its texts name, and plans whatever it imports. -/
namespace ClientGen
variable {d d' : Document} {t : MappingTable} {mode : FingerprintMode} {m : Model} {o : Options}
  {a : String}

namespace Model

/-- One schema has the name, and packages of both targets declare a type and a validator under it. -/
structure Declares (m : Model) (o : Options) (name : String) : Prop where
  schema : (m.schemas.map (·.name)).count name = 1
  typescriptType : TypeScript.DeclaresType (TypeScript.types m o) name
  typescriptValidator : TypeScript.DeclaresValidator (TypeScript.validators m) name
  pythonType : Python.DeclaresType (Python.types m o) name
  pythonModel : Python.DeclaresModel (Python.validators m o) name

/-- The texts of a type name words of the languages and declared types. A validator names the constants for
declared types, and what is evaluated on import refers to them by literals. -/
structure WritesClosed (m : Model) (o : Options) (type : TypeExpr) : Prop where
  typescript : ∀ a ∈ Code.names (TypeScript.type type), a ∈ TypeScript.typeWords ∨ m.Declares o a
  validator : ∀ a ∈ Code.names (TypeScript.validator type), a ∈ TypeScript.validatorWords ∨
    ∃ b, m.Declares o b ∧ a = TypeScript.schemaConst b
  python : ∀ a ∈ Code.names ( Python.annotation type), a ∈ Python.typeWords ∨ m.Declares o a
  evaluated : ∀ a ∈ Code.references (Python.eager type), m.Declares o a

/-- So do the lines of a declaration and of its validator. Literals inside of a class are documentation, aliases and
values, and refer to nothing. -/
structure DeclaresClosed (m : Model) (o : Options) (s : Api.SchemaRecord) : Prop where
  typescriptType : ∀ l ∈ TypeScript.typeDeclaration (.of m.types TypeScript.type s), ∀ a ∈ Code.names l,
    a ∈ TypeScript.declarationWords ∨ m.Declares o a
  typescriptValidator : ∀ l ∈ TypeScript.validatorDeclaration (.of m.types TypeScript.validator s),
    ∀ a ∈ Code.names l, a ∈ TypeScript.validatorDeclarationWords ∨ m.Declares o a ∨
      ∃ b, m.Declares o b ∧ a = TypeScript.schemaConst b
  pythonType : ∀ l ∈ Python.typeDeclaration m o s,
    (∀ a ∈ Code.names l, a ∈ Python.declarationWords ∨ m.Declares o a) ∧
      (Python.isClass (m.types.declare s) = false → ∀ a ∈ Code.references l, m.Declares o a)
  pythonModel : ∀ l ∈ Python.validatorDeclaration m o s,
    (∀ a ∈ Code.names l, a ∈ Python.modelWords ∨ m.Declares o a) ∧
      (Python.isModel (m.types.declare s) = false → ∀ a ∈ Code.references l, m.Declares o a)

/-- What the files of a package mention is declared, and what its clients import is planned. -/
structure ImportsClosed (m : Model) (o : Options) : Prop where
  planned : .types ∈ m.plan o ∧ .validators ∈ m.plan o
  names : ∀ s ∈ m.schemas, m.Declares o s.name
  schemas : ∀ s ∈ m.schemas, ∀ a, (m.types.typeOf s.shape).Mentions a ∨ (m.types.declare s).Mentions a →
    m.Declares o a
  operations : ∀ op ∈ m.operations, ∀ s ∈ op.shapes, ∀ a, (m.types.typeOf s).Mentions a →
    m.Declares o a
  texts : ∀ op ∈ m.operations, ∀ s ∈ op.shapes, m.WritesClosed o (m.types.typeOf s)
  declarations : ∀ s ∈ m.schemas, m.DeclaresClosed o s
  clients : ∀ (target : Target) (methods : List target.Method), target.IsClient m methods →
    (∀ a ∈ target.importedTypes methods, m.Declares o a) ∧
      ∀ c ∈ methods, target.stream c ≠ none → .streaming ∈ m.plan o

namespace Sound

theorem declares (h : m.Sound) (ha : a ∈ m.typeNames) : m.Declares o a := by
  obtain ⟨s, hs, rfl⟩ := List.mem_map.mp ha
  exact ⟨List.count_eq_one_of_mem h.closed.distinct ha, TypeScript.declaresType_types hs,
    TypeScript.declaresValidator_validators hs, Python.declaresType_types hs,
    Python.declaresModel_validators hs⟩

theorem mem_of_uses {s : Api.SchemaRecord} (h : m.Sound) (hs : s ∈ m.schemas) (ha : m.Uses s a) : a ∈ m.typeNames := by
  rcases ha with rfl | ha
  · exact List.mem_map_of_mem hs
  · exact h.mem_of_mentions_declare hs ha

/-- Names that are words stand in the texts as they are. -/
theorem writesClosed {type : TypeExpr} (h : m.Sound) (hwords : ∀ name ∈ m.typeNames, Identifier.IsWord name)
    (htype : ∀ a, type.Mentions a → a ∈ m.typeNames) : m.WritesClosed o type := by
  have hword : ∀ a, type.Mentions a → Identifier.IsWord a := fun a ha => hwords a (htype a ha)
  have declared {a : String} (ha : type.Mentions a) : m.Declares o a := h.declares (htype a ha)
  refine ⟨fun a ha => ?_, fun a ha => ?_, fun a ha => ?_, fun a ha => ?_⟩
  · exact (TypeScript.names_type hword a ha).imp_right declared
  · exact (TypeScript.names_validator hword a ha).imp_right fun ⟨b, hb, he⟩ => ⟨b, declared hb, he⟩
  · exact ((Python.names_annotated hword).1 a ha).imp_right declared
  · exact declared ((Python.names_evaluated hword).2 a ha)

theorem declaresClosed {s : Api.SchemaRecord} (h : m.Sound)
    (hwords : ∀ name ∈ m.typeNames, Identifier.IsWord name) (hs : s ∈ m.schemas) : m.DeclaresClosed o s := by
  have declared {a : String} (ha : m.Uses s a) : m.Declares o a := h.declares (h.mem_of_uses hs ha)
  have hword : ∀ a, m.Uses s a → Identifier.IsWord a := fun a ha => hwords a (h.mem_of_uses hs ha)
  refine ⟨fun l hl a ha => ?_, fun l hl a ha => ?_, fun l hl => ?_, fun l hl => ?_⟩
  · exact (TypeScript.names_typeDeclaration hword l hl a ha).imp_right declared
  · refine (TypeScript.names_validatorDeclaration hword l hl a ha).imp_right (.imp (declared ∘ .inl) ?_)
    exact fun ⟨b, hb, he⟩ => ⟨b, declared hb, he⟩
  · obtain ⟨hnames, hreferences⟩ := Python.names_typeDeclaration hword l hl
    exact ⟨fun a ha => (hnames a ha).imp_right declared, fun hclass a ha => declared (hreferences hclass a ha)⟩
  · obtain ⟨hnames, hreferences⟩ := Python.names_validatorDeclaration hword l hl
    exact ⟨fun a ha => (hnames a ha).imp_right declared, fun hmodel a ha => declared (hreferences hmodel a ha)⟩

theorem importsClosed (h : m.Sound) (hwords : ∀ name ∈ m.typeNames, Identifier.IsWord name) (o : Options) :
    m.ImportsClosed o where
  planned := by simp [Model.plan]
  names s hs := h.declares (List.mem_map_of_mem hs)
  schemas s hs a ha := by
    rcases ha with ha | ha
    · exact h.declares (TypeMap.mem_of_mentions_typeOf h.types (h.closed.schemas s hs) ha)
    · exact h.declares (h.mem_of_mentions_declare hs ha)
  operations op hop s hs a ha := h.declares (h.mem_of_mentions_typesOf hop (List.mem_map_of_mem hs) ha)
  texts op hop s hs := h.writesClosed hwords fun _ => h.mem_of_mentions_typesOf hop (List.mem_map_of_mem hs)
  declarations s hs := h.declaresClosed hwords hs
  clients target methods hc := by
    obtain ⟨ops, rfl, hops⟩ := hc.exists_operations h
    refine ⟨fun a ha => ?_, fun c hc hs => ?_⟩
    · obtain ⟨op, hop, type, htype, ha⟩ := Target.mem_importedTypes.mp ha
      exact h.declares (h.mem_of_mentions_typesOf (hops op hop) htype ha)
    · obtain ⟨op, hop, rfl⟩ := List.mem_map.mp hc
      rw [Target.stream_method] at hs
      exact Model.streaming_mem_plan (hops op hop) fun hnone => hs (hnone ▸ rfl)

end Sound
end Model

theorem Document.sound_prepare (hd : (Entries.keys d.sections.schemas).Nodup)
    (hr : d.resolve = .ok d') (hp : d'.extract.prepare (some t) mode = .ok (.ready m)) : m.Sound := by
  obtain ⟨_, _, he⟩ := resolve_eq_ok.mp hr
  have hc : d'.sections = d.sections := by rw [he]; rfl
  have hd' : d'.Resolvable := exists_resolve.mp ⟨d', resolve_again hr⟩
  exact Model.sound_prepare (Document.closed_extract (hc ▸ hd) hd') hp

/-- From a document that can be resolved to the files of a package: under every mapping that can be
applied, both kinds of fingerprints and every layout, no file mentions a type that none declares, its texts
name nothing else either, and no client calls a decoder that is not generated. Component schemas are an
ordered map, so their names are distinct (`nodup_schemas_parse`). -/
theorem Document.package_importsClosed (hd : (Entries.keys d.sections.schemas).Nodup)
    (hr : d.resolve = .ok d') (hp : d'.extract.prepare (some t) mode = .ok (.ready m)) (o : Options) :
    m.ImportsClosed o :=
  (sound_prepare hd hr hp).importsClosed (Api.isWord_of_prepare hp) o

theorem Document.package_importsClosed_feed :
    (feed (.ref "#/components/parameters/Id")).resolve = .ok (feed (.inline feedId)) ∧
      ∃ m, (feed (.inline feedId)).extract.prepare (some swap) .typed = .ok (.ready m) ∧
        m.ImportsClosed ⟨.both, none, 30, false⟩ := by
  have hr : (feed (.ref "#/components/parameters/Id")).resolve = .ok (feed (.inline feedId)) := rfl
  obtain ⟨m, hm⟩ : ∃ m, (feed (.inline feedId)).extract.prepare (some swap) .typed = .ok (.ready m) :=
    ⟨_, rfl⟩
  exact ⟨hr, m, hm, Document.package_importsClosed (by decide) hr hm _⟩

/-- Names of component schemas are distinct in every document that is read from a text. -/
theorem Document.load_importsClosed {format : Format} {text : String} (h : load format text = .ok d)
    (hp : d.extract.prepare (some t) mode = .ok (.ready m)) (o : Options) : m.ImportsClosed o := by
  obtain ⟨d', hd, hr⟩ := bind_eq_ok.mp h
  have hr : d'.resolve = .ok d := mapError_eq_ok.mp hr
  exact (sound_prepare (nodup_schemas_parse hd) hr hp).importsClosed (Api.isWord_of_prepare hp) o

end ClientGen
