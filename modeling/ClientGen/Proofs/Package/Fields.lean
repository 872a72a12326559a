import ClientGen.Api.Extract
import ClientGen.Proofs.Package.Arguments
import ClientGen.Proofs.Package.Member
import ClientGen.Proofs.Text
import ClientGen.Python.Validator

/-! The fields of models. They stand for the properties of an object, in their order, each under the name of
its property; but their identifiers tell only the words of a name, in lower case. -/
namespace ClientGen
open Letter

namespace Letter
variable {c d : Char}

/-- A letter or digit of ASCII, or anything beyond it. -/
def IsInner (c : Char) : Prop := isAsciiAlnum c ∨ 0x80 ≤ c.toNat
deriving Decidable

/-- A run is lowered to characters beyond ASCII, but for the Kelvin sign, which becomes a letter of ASCII. -/
theorem lowered_run : ∀ run ∈ loweringRuns,
    (0x80 ≤ run.1 + run.2.2.2 ∧ run.2.1 + run.2.2.2 < 0xd800) ∨
      (0xdfff < run.1 + run.2.2.2 ∧ run.2.1 + run.2.2.2 < 0x110000) ∨
      (run.1 = run.2.1 ∧ run.1 + run.2.2.2 = 'k'.toNat) := by decide +kernel

/-- Lowering leaves something of a letter or digit, and makes no mark of it. -/
theorem lower_spec (hc : isAlnum c) : lower c ≠ [] ∧ ∀ d ∈ lower c, IsInner d := by
  rw [lower]
  split
  · rename_i hascii
    rw [isAlnum, if_pos hascii] at hc
    refine ⟨List.cons_ne_nil _ _, fun d hd => .inl ?_⟩
    rw [List.mem_singleton.mp hd]
    exact isAsciiAlnum_of_isLowered (ascii_casing hc).1
  · rename_i hascii
    split
    · exact ⟨List.cons_ne_nil _ _, by simp [IsInner, isAsciiAlnum]⟩
    · split
      · -- what the table gives lies between what it gives for the first and the last of its run
        rename_i first last step distance hrun
        refine ⟨List.cons_ne_nil _ _, fun d hd => ?_⟩
        obtain rfl := List.mem_singleton.mp hd
        have hin := List.find?_some hrun
        simp only [inRun, Bool.and_eq_true, decide_eq_true_eq] at hin
        have htable := lowered_run _ (List.mem_of_find?_eq_some hrun)
        dsimp only at htable
        by_cases hk : c.toNat + distance = 'k'.toNat
        · rw [hk]
          exact .inl (by decide)
        · have hvalid : (c.toNat + distance).toNat.isValidChar := by
            rw [Nat.isValidChar]
            omega
          have hsame : (Char.ofNat (c.toNat + distance).toNat).toNat = (c.toNat + distance).toNat := by
            rw [Char.ofNat, dif_pos hvalid]
            rfl
          right
          omega
      · refine ⟨List.cons_ne_nil _ _, fun d hd => .inr ?_⟩
        rw [List.mem_singleton.mp hd]
        exact Nat.le_of_not_lt hascii

end Letter

namespace Words
variable {s w : List Char}

/-- The words of any text are of letters and digits. -/
theorem alnum_of_mem_ofText (hw : w ∈ ofText s) : w ≠ [] ∧ ∀ c ∈ w, isAlnum c := by
  obtain ⟨part, hpart, hw⟩ := List.mem_flatMap.mp hw
  have hne : part ≠ [] := by
    rintro rfl
    cases hw
  obtain ⟨hflat, first, rest, hsplit, hhead, hrest⟩ := splitFrom_spec .start [] part hne (by simp)
  refine ⟨?_, fun c hc => ?_⟩
  · rw [hsplit] at hw
    rcases List.mem_cons.mp hw with rfl | hw
    · rintro rfl
      exact hne (by simpa using hhead.symm)
    · rintro rfl
      obtain ⟨c, hc, -⟩ := hrest _ hw
      cases hc
  · have hmem : c ∈ part := by simpa [hflat] using List.mem_flatten_of_mem hw hc
    simpa using Text.forall_of_mem_splitOnP hpart c hmem

theorem lowered_spec (hw : w ≠ []) (h : ∀ c ∈ w, isAlnum c) :
    lowered w ≠ [] ∧ ∀ c ∈ lowered w, IsInner c := by
  fun_induction lowered w with
  | case1 => exact (hw rfl).elim
  | case2 => exact ⟨List.cons_ne_nil _ _, by simp [IsInner]⟩
  | case3 c => exact lower_spec (h c List.mem_cons_self)
  | case4 c d rest ih =>
    obtain ⟨hc, hrest⟩ := List.forall_mem_cons.mp h
    obtain ⟨hne, hinner⟩ := lower_spec hc
    exact ⟨by simp [hne], List.forall_mem_append.mpr ⟨hinner, (ih (List.cons_ne_nil _ _) hrest).2⟩⟩

/-- In snake case a text has underscores between words only. -/
theorem trimmed_snake (h : snake s ≠ []) : Trimmed (snake s) := by
  rw [snake] at h ⊢
  refine trimmed_intercalate (fun hnil => h (by rw [hnil]; rfl)) fun v hv => ?_
  obtain ⟨w, hw, rfl⟩ := List.mem_map.mp hv
  obtain ⟨hne, halnum⟩ := alnum_of_mem_ofText hw
  obtain ⟨hlow, hinner⟩ := lowered_spec hne halnum
  exact ⟨hlow, fun hmem => absurd (hinner _ hmem) (by decide)⟩

end Words

namespace Python
variable {a b name : String} {m : Model} {s : Api.SchemaRecord} {o : ObjectShape}

/-! ### Identifiers -/

/-- Identifiers are made of letters, digits and underscores, which need not be of ASCII. -/
theorem inner_ident (name : String) : ∀ c ∈ (ident name).toList, IsInner c ∨ c = '_' := by
  have hsnake : ∀ c ∈ Words.snake name.toList, IsInner c ∨ c = '_' := by
    rw [Words.snake, Text.forall_mem_intercalate_iff (by simp)]
    intro w hw c hc
    obtain ⟨word, hword, rfl⟩ := List.mem_map.mp hw
    obtain ⟨hne, halnum⟩ := Words.alnum_of_mem_ofText hword
    exact .inl ((Words.lowered_spec hne halnum).2 c hc)
  have hmark : ∀ c ∈ "_".toList, IsInner c ∨ c = '_' := by simp
  rw [ident]
  split
  · exact hmark
  · split
    · simpa using hsnake
    · split
      · simpa [or_imp, forall_and] using hsnake
      · simpa using hsnake

theorem ident_of_snake_eq_nil (h : Words.snake name.toList = []) : ident name = "_" := by
  simp only [ident, h]

theorem ident_eq_underscore_iff : ident name = "_" ↔ Words.snake name.toList = [] := by
  refine ⟨fun he => ?_, ident_of_snake_eq_nil⟩
  by_contra hne
  -- the text in snake case does not begin with an underscore, and it is still within the identifier
  obtain ⟨-, hhead, -⟩ := Words.trimmed_snake hne
  obtain ⟨front, back, -, -, hpadded⟩ := padded_ident hne
  obtain ⟨c, rest, hsnake⟩ := List.exists_cons_of_ne_nil hne
  have hmem : c ∈ ['_'] := by
    have hmark : "_".toList = ['_'] := by decide
    rw [← hmark, ← he, hpadded, hsnake]
    simp
  rw [List.mem_singleton.mp hmem] at hsnake
  exact hhead (by rw [hsnake, List.head?_cons])

/-- Two names get one identifier exactly if they are the same in snake case. -/
theorem ident_eq_iff : ident a = ident b ↔ Words.snake a.toList = Words.snake b.toList := by
  constructor
  · intro h
    by_cases ha : Words.snake a.toList = []
    · have hb := ident_of_snake_eq_nil ha
      rw [h] at hb
      rw [ha, ident_eq_underscore_iff.mp hb]
    · have hb : Words.snake b.toList ≠ [] := by
        intro hb
        have hmark := ident_of_snake_eq_nil hb
        rw [← h] at hmark
        exact ha (ident_eq_underscore_iff.mp hmark)
      have hpadded := padded_ident hb
      rw [← h] at hpadded
      exact (padded_ident ha).inj (Words.trimmed_snake ha) (Words.trimmed_snake hb) hpadded
  · intro h
    simp only [ident, h]

/-! ### Fields -/

/-- The fields of the model of a schema; a schema that is no object with properties has none. -/
def modelFields (m : Model) (s : Api.SchemaRecord) : List ModelField :=
  match (SchemaView.of m.types annotation s).body with
  | .object fields _ => fields.map .of
  | .enum _ | .synonym _ => []

namespace ModelField

/-- The name under which the value of a field travels. -/
def wire (f : ModelField) : String := f.wireName.getD f.ident

/-- The same, as far as it is printed. -/
def printedWire (f : ModelField) : String := (f.wireName.filter (!·.isEmpty)).getD f.ident

theorem wire_of (f : FieldView) : (of f).wire = f.name := by
  rw [wire, of]
  split <;> simp [*]

theorem printedWire_of (f : FieldView) : (of f).printedWire = if f.name = "" then "_" else f.name := by
  have hempty : Python.ident "" = "_" := by decide +kernel
  rw [printedWire, of]
  by_cases hname : f.name = ""
  · simp [hname, hempty, Option.filter]
  · by_cases hident : Python.ident f.name = f.name
    · simp [hname, hident]
    · simp [hname, hident, Option.filter]

end ModelField

/-- How the fields of a model stand for the properties of an object. -/
structure KeepsProperties (m : Model) (s : Api.SchemaRecord) (o : ObjectShape) : Prop where
  /-- They are what the body of the class ends with. -/
  lines : ∀ options, Lines.indent 4 ((modelFields m s).map ModelField.print) <:+ validatorDeclaration m options s
  wires : (modelFields m s).map (·.wire) = o.properties.map Prod.fst
  /-- Only the empty name is not printed. -/
  printed : (modelFields m s).map (·.printedWire) = o.properties.map fun p => if p.1 = "" then "_" else p.1
  free : ∀ f ∈ modelFields m s, f.ident ∉ keywords ∧ f.ident ∉ taken
  distinct : ((modelFields m s).map (·.ident)).Nodup ↔
    (o.properties.map fun p => Words.snake p.1.toList).Nodup

theorem fields_of_object (hs : s.shape = .object o) : modelFields m s =
    o.properties.map fun p => ModelField.of
      ⟨p.1, Name.ofText p.1, annotation (m.types.typeOf p.2), decide (p.1 ∈ o.required)⟩ := by
  rw [modelFields, SchemaView.of, TypeMap.declare, hs]
  by_cases hnone : o.properties = []
  · simp [hnone, SchemaBodyView.of]
  · simp [hnone, SchemaBodyView.of, Function.comp_def]

/-- What is printed of the fields stands at the end of the class. -/
theorem suffix_validatorDeclaration (hs : s.shape = .object o) (options : Options) :
    Lines.indent 4 ((modelFields m s).map ModelField.print) <:+ validatorDeclaration m options s := by
  by_cases hnone : o.properties = []
  · rw [fields_of_object hs, hnone]
    exact List.nil_suffix
  · have hdeclare : m.types.declare s = .object (o.properties.map fun p =>
        ⟨p.1, m.types.typeOf p.2, p.1 ∈ o.required⟩) (o.additional.map m.types.typeOf) := by
      rw [TypeMap.declare, hs]
      exact if_neg (by simpa using hnone)
    rw [modelFields, validatorDeclaration]
    simp only [SchemaView.of, hdeclare, isModel, if_true, SchemaBodyView.of, modelClass, Lines.indent,
      List.map_append, List.map_map]
    exact (List.suffix_append _ _).trans (List.suffix_cons _ _)

/-- A model has a field for every property of its object, in their order, under the name of the property, and
none of them is a keyword or a name of the code around it. Their identifiers are distinct exactly if the names
differ in snake case, too; what is alike there is one attribute of the class. -/
theorem fields_keep_properties (m : Model) (hs : s.shape = .object o) : KeepsProperties m s o where
  lines := suffix_validatorDeclaration hs
  wires := by
    rw [fields_of_object hs, List.map_map]
    simp only [Function.comp_def, ModelField.wire_of]
  printed := by
    rw [fields_of_object hs, List.map_map]
    simp only [Function.comp_def, ModelField.printedWire_of]
  free f hf := by
    rw [fields_of_object hs] at hf
    obtain ⟨p, -, rfl⟩ := List.mem_map.mp hf
    have hfree := ident_not_mem_reserved p.1
    rw [reserved, List.mem_append, not_or] at hfree
    exact ⟨hfree.2, hfree.1⟩
  distinct := by
    rw [fields_of_object hs, List.map_map]
    simp only [List.Nodup, List.pairwise_map, Function.comp_def, ModelField.of, ne_eq, ident_eq_iff]

/-- One schema, an object with texts for properties. -/
def paged (names : List String) : Document :=
  let text : SchemaBody := { SchemaBody.empty with type := some (.single .string) }
  let page : SchemaBody := { SchemaBody.empty with
    type := some (.single .object)
    properties := names.map fun name => (name, .inline text) }
  { openapi := "3.1.0"
    info := ⟨"Paged", none, "1"⟩
    servers := []
    paths := []
    components := some
      { schemas := [("Page", .inline page)], responses := [], parameters := [], requestBodies := [] } }

/-- A keyword, a digit in front, capitals beyond ASCII, and no letter at all. -/
theorem fields_keep_properties_paged : ∃ m s o,
    (paged ["class", "2fa", "ÄußereId", ""]).extract.prepare (some .empty) .typed = .ok (.ready m) ∧
      s ∈ m.schemas ∧ s.shape = .object o ∧ KeepsProperties m s o ∧
      (modelFields m s).map (·.ident) = ["class_", "_2fa", "äußere_id", "_"] := by
  obtain ⟨m, s, o, hm, hs, hobject, hidents⟩ : ∃ m s o,
      (paged ["class", "2fa", "ÄußereId", ""]).extract.prepare (some .empty) .typed = .ok (.ready m) ∧
        s ∈ m.schemas ∧ s.shape = .object o ∧
        (modelFields m s).map (·.ident) = ["class_", "_2fa", "äußere_id", "_"] :=
    ⟨_, _, _, rfl, List.mem_cons_self, rfl, by decide +kernel⟩
  exact ⟨m, s, o, hm, hs, hobject, fields_keep_properties m hobject, hidents⟩

/-- Two properties of the same words are one attribute of the class. -/
theorem page_size_twice : ∃ m s,
    (paged ["pageSize", "page_size"]).extract.prepare (some .empty) .typed = .ok (.ready m) ∧
      s ∈ m.schemas ∧ (modelFields m s).map (·.ident) = ["page_size", "page_size"] ∧
      ¬((modelFields m s).map (·.ident)).Nodup :=
  ⟨_, _, rfl, List.mem_cons_self, by decide +kernel, by decide +kernel⟩

end Python
end ClientGen
