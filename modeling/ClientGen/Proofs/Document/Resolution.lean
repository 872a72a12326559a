import ClientGen.Proofs.Document.Chain
import ClientGen.Proofs.Document.Schema

/-! Resolving a document: when it succeeds, what it changes, and that once is enough. -/
namespace ClientGen.Document
variable {α : Type} {expected : String} {entries : Entries String (RefOr α)} {r new : RefOr α}
  {table : SchemaTable} {within : α → List Schema} {c : Components} {d d' : Document}

/-- The schemas and the item schemas of a content map. -/
def schemasOf (content : Entries String MediaType) : List Schema :=
  content.flatMap fun e => e.2.schema.toList ++ e.2.itemSchema.toList

def Parameter.schemas (p : Parameter) : List Schema := p.schema.toList

def Body.schemas (b : Body) : List Schema := schemasOf b.content

def Response.schemas (r : Response) : List Schema := schemasOf r.content

/-- Links lead from `r` to an object, all of whose schema references lead to schemas. -/
def Leads (expected : String) (entries : Entries String (RefOr α)) (table : SchemaTable)
    (within : α → List Schema) (r : RefOr α) : Prop :=
  ∃ value, Reaches expected entries r value ∧ ∀ s ∈ within value, s.Known table

/-- The object that links lead to from `r`, written in place. -/
def InPlace (expected : String) (entries : Entries String (RefOr α)) (r new : RefOr α) : Prop :=
  ∃ value, Reaches expected entries r value ∧ new = .inline value

/-- Every reference of the operation leads to an object that mentions known schemas. -/
structure Operation.Resolvable (c : Components) (op : Operation) : Prop where
  parameters : ∀ p ∈ op.parameters, Leads "parameters" c.parameters c.schemas Parameter.schemas p
  requestBody : ∀ b ∈ op.requestBody, Leads "requestBodies" c.requestBodies c.schemas Body.schemas b
  responses : ∀ e ∈ op.responses, Leads "responses" c.responses c.schemas Response.schemas e.2

/-- So does every reference of its operations, and of the parameters that they share. -/
structure PathItem.Resolvable (c : Components) (item : PathItem) : Prop where
  parameters : ∀ p ∈ item.parameters, Leads "parameters" c.parameters c.schemas Parameter.schemas p
  operations : ∀ m, ∀ op ∈ item.operation m, op.Resolvable c

/-- All references lead somewhere: those of paths to objects, those of schemas to schemas. -/
structure Resolvable (d : Document) : Prop where
  paths : ∀ e ∈ d.paths, e.2.Resolvable d.sections
  schemas : ∀ e ∈ d.sections.schemas, e.2.Known d.sections.schemas

/-- The same operation but for references, whose objects are written in place. -/
structure Operation.Resolves (c : Components) (op new : Operation) : Prop where
  parameters : List.Forall₂ (InPlace "parameters" c.parameters) op.parameters new.parameters
  requestBody : Option.Rel (InPlace "requestBodies" c.requestBodies) op.requestBody new.requestBody
  responses : List.Forall₂ (fun e e' => e'.1 = e.1 ∧ InPlace "responses" c.responses e.2 e'.2)
    op.responses new.responses
  rest : new = { op with
    parameters := new.parameters, requestBody := new.requestBody, responses := new.responses }

/-- The same path but for references; every method keeps its operation. -/
structure PathItem.Resolves (c : Components) (item new : PathItem) : Prop where
  parameters : List.Forall₂ (InPlace "parameters" c.parameters) item.parameters new.parameters
  operations : ∀ m, Option.Rel (Operation.Resolves c) (item.operation m) (new.operation m)

/-- The same document but for the references of its paths. -/
structure Resolves (d new : Document) : Prop where
  paths : List.Forall₂ (fun e e' => e'.1 = e.1 ∧ e.2.Resolves d.sections e'.2) d.paths new.paths
  rest : new = { d with paths := new.paths }

/-- No reference is left in the operation but those of schemas. -/
structure Operation.Inline (op : Operation) : Prop where
  parameters : ∀ p ∈ op.parameters, ∃ value, p = .inline value
  requestBody : ∀ b ∈ op.requestBody, ∃ value, b = .inline value
  responses : ∀ e ∈ op.responses, ∃ value, e.2 = .inline value

structure PathItem.Inline (item : PathItem) : Prop where
  parameters : ∀ p ∈ item.parameters, ∃ value, p = .inline value
  operations : ∀ m, ∀ op ∈ item.operation m, op.Inline

theorem checkSchema_eq_ok {schema : Option Schema} :
    schema.forM (Schema.check table) = .ok () ↔ ∀ s ∈ schema.toList, s.Known table := by
  simp only [optionForM_eq_ok, Schema.check_eq_ok, Option.mem_toList, Option.mem_def]

theorem Components.checkContent_eq_ok {content : Entries String MediaType} :
    c.checkContent content = .ok () ↔ ∀ s ∈ schemasOf content, s.Known c.schemas := by
  rw [checkContent, forM_eq_ok]
  simp only [andThen_eq_ok, checkSchema_eq_ok, schemasOf, List.mem_flatMap, List.mem_append]
  constructor
  · rintro h s ⟨e, he, hs | hs⟩
    · exact (h e he).1 s hs
    · exact (h e he).2 s hs
  · exact fun h e he => ⟨fun s hs => h s ⟨e, he, .inl hs⟩, fun s hs => h s ⟨e, he, .inr hs⟩⟩

/-- A reference is followed, the schemas of the object are checked, and the object is written in
place. -/
def Inlines (expected : String) (entries : Entries String (RefOr α)) (table : SchemaTable)
    (within : α → List Schema) (f : RefOr α → Except ReferenceError (RefOr α)) : Prop :=
  ∀ r new, f r = .ok new ↔ Leads expected entries table within r ∧ InPlace expected entries r new

/-- Parameters, bodies and responses are resolved alike. -/
theorem inlines_follow {check : α → Except ReferenceError Unit} (he : '/' ∉ expected.toList)
    (hc : ∀ value, check value = .ok () ↔ ∀ s ∈ within value, s.Known table) :
    Inlines expected entries table within fun r => do
      let value ← follow expected entries r
      check value
      return .inline value := by
  intro r new
  simp only [bind_eq_ok, hc, pure_eq_ok]
  constructor
  · rintro ⟨value, hr, _, hk, rfl⟩
    have hr := (follow_eq_ok he).mp hr
    exact ⟨⟨value, hr, hk⟩, value, hr, rfl⟩
  · rintro ⟨⟨value, hr, hk⟩, value', hr', rfl⟩
    obtain rfl := hr.unique hr'
    exact ⟨value, (follow_eq_ok he).mpr hr, (), hk, rfl⟩

theorem inlines_resolveParameter :
    Inlines "parameters" c.parameters c.schemas Parameter.schemas c.resolveParameter :=
  inlines_follow (by decide) fun _ => checkSchema_eq_ok

theorem inlines_resolveBody :
    Inlines "requestBodies" c.requestBodies c.schemas Body.schemas c.resolveBody :=
  inlines_follow (by decide) fun _ => Components.checkContent_eq_ok

theorem inlines_resolveResponse :
    Inlines "responses" c.responses c.schemas Response.schemas c.resolveResponse :=
  inlines_follow (by decide) fun _ => Components.checkContent_eq_ok

namespace Inlines
variable {f : RefOr α → Except ReferenceError (RefOr α)} (hf : Inlines expected entries table within f)
include hf

theorem inPlace (h : f r = .ok new) : InPlace expected entries r new := ((hf r new).mp h).2

theorem exists_iff : (∃ new, f r = .ok new) ↔ Leads expected entries table within r := by
  constructor
  · rintro ⟨new, h⟩
    exact ((hf r new).mp h).1
  · rintro ⟨value, hr, hk⟩
    exact ⟨.inline value, (hf _ _).mpr ⟨⟨value, hr, hk⟩, value, hr, rfl⟩⟩

theorem again (h : f r = .ok new) : f new = .ok new := by
  obtain ⟨⟨value, hr, hk⟩, value', hr', rfl⟩ := (hf r new).mp h
  obtain rfl := hr.unique hr'
  exact (hf _ _).mpr ⟨⟨value, reaches_inline value, hk⟩, value, reaches_inline value, rfl⟩

end Inlines

section
variable {op op' : Operation} {item item' : PathItem}

/-- An operation is resolved in its three places, each on its own. -/
theorem resolveOperation_eq_ok : c.resolveOperation op = .ok op' ↔
    op.parameters.mapM c.resolveParameter = .ok op'.parameters ∧
    op.requestBody.mapM c.resolveBody = .ok op'.requestBody ∧
    (op.responses.mapM fun e => return (e.1, ← c.resolveResponse e.2)) = .ok op'.responses ∧
    op' = { op with
      parameters := op'.parameters, requestBody := op'.requestBody, responses := op'.responses } := by
  rw [Components.resolveOperation]
  simp only [bind_eq_ok, pure_eq_ok]
  constructor
  · rintro ⟨ps, hp, body, hb, rs, hr, rfl⟩
    exact ⟨hp, hb, hr, rfl⟩
  · rintro ⟨hp, hb, hr, he⟩
    exact ⟨_, hp, _, hb, _, hr, he.symm⟩

theorem resolveOperation_again (h : c.resolveOperation op = .ok op') :
    c.resolveOperation op' = .ok op' := by
  obtain ⟨hp, hb, hr, _⟩ := resolveOperation_eq_ok.mp h
  refine resolveOperation_eq_ok.mpr ⟨?_, ?_, ?_, rfl⟩
  · exact mapM_again (fun _ _ => inlines_resolveParameter.again) hp
  · exact optionMapM_again (fun _ _ => inlines_resolveBody.again) hb
  · refine mapM_again (fun e e' h => ?_) hr
    obtain ⟨_, h⟩ := keyed_eq_ok.mp h
    exact keyed_eq_ok.mpr ⟨rfl, inlines_resolveResponse.again h⟩

theorem resolves_resolveOperation (h : c.resolveOperation op = .ok op') : op.Resolves c op' := by
  obtain ⟨hp, hb, hr, he⟩ := resolveOperation_eq_ok.mp h
  rw [mapM_eq_ok] at hp hr
  rw [optionMapM_eq_ok] at hb
  refine ⟨?_, ?_, ?_, he⟩
  · exact hp.imp fun _ _ h => inlines_resolveParameter.inPlace h
  · exact optionRel_imp (fun _ _ h => inlines_resolveBody.inPlace h) hb
  · refine hr.imp fun e e' h => ?_
    obtain ⟨hk, h⟩ := keyed_eq_ok.mp h
    exact ⟨hk, inlines_resolveResponse.inPlace h⟩

theorem exists_resolveOperation : (∃ op', c.resolveOperation op = .ok op') ↔ op.Resolvable c := by
  have hresponse (e : String × RefOr Response) :
      (∃ e', (do return (e.1, ← c.resolveResponse e.2)) = .ok e') ↔
        Leads "responses" c.responses c.schemas Response.schemas e.2 := by
    rw [← inlines_resolveResponse.exists_iff]
    simp only [keyed_eq_ok]
    exact ⟨fun ⟨e', _, h⟩ => ⟨e'.2, h⟩, fun ⟨r, h⟩ => ⟨(e.1, r), rfl, h⟩⟩
  constructor
  · rintro ⟨op', h⟩
    obtain ⟨hp, hb, hr, _⟩ := resolveOperation_eq_ok.mp h
    refine ⟨fun p hmem => ?_, fun b hmem => ?_, fun e hmem => ?_⟩
    · exact inlines_resolveParameter.exists_iff.mp (exists_mapM_eq_ok.mp ⟨_, hp⟩ p hmem)
    · exact inlines_resolveBody.exists_iff.mp (exists_optionMapM_eq_ok.mp ⟨_, hb⟩ b hmem)
    · exact (hresponse e).mp (exists_mapM_eq_ok.mp ⟨_, hr⟩ e hmem)
  · rintro ⟨hp, hb, hr⟩
    obtain ⟨ps, hp⟩ := exists_mapM_eq_ok.mpr fun p h => inlines_resolveParameter.exists_iff.mpr (hp p h)
    obtain ⟨b, hb⟩ := exists_optionMapM_eq_ok.mpr fun b h => inlines_resolveBody.exists_iff.mpr (hb b h)
    obtain ⟨rs, hr⟩ := exists_mapM_eq_ok.mpr fun e h => (hresponse e).mpr (hr e h)
    exact ⟨{ op with parameters := ps, requestBody := b, responses := rs },
      resolveOperation_eq_ok.mpr ⟨hp, hb, hr, rfl⟩⟩

/-- A path is resolved method by method. -/
theorem resolvePathItem_eq_ok : c.resolvePathItem item = .ok item' ↔
    item.parameters.mapM c.resolveParameter = .ok item'.parameters ∧
    ∀ m, (item.operation m).mapM c.resolveOperation = .ok (item'.operation m) := by
  rw [Components.resolvePathItem]
  simp only [bind_eq_ok, pure_eq_ok]
  constructor
  · rintro ⟨ps, hp, _, hget, _, hpost, _, hput, _, hdelete, _, hpatch, _, hoptions, _, hhead, _, htrace,
      rfl⟩
    refine ⟨hp, fun m => ?_⟩
    cases m <;> assumption
  · rintro ⟨hp, h⟩
    exact ⟨_, hp, _, h .get, _, h .post, _, h .put, _, h .delete, _, h .patch, _, h .options, _,
      h .head, _, h .trace, rfl⟩

theorem resolvePathItem_again (h : c.resolvePathItem item = .ok item') :
    c.resolvePathItem item' = .ok item' := by
  obtain ⟨hp, ho⟩ := resolvePathItem_eq_ok.mp h
  refine resolvePathItem_eq_ok.mpr ⟨?_, fun m => ?_⟩
  · exact mapM_again (fun _ _ => inlines_resolveParameter.again) hp
  · exact optionMapM_again (fun _ _ => resolveOperation_again) (ho m)

theorem resolves_resolvePathItem (h : c.resolvePathItem item = .ok item') : item.Resolves c item' := by
  obtain ⟨hp, ho⟩ := resolvePathItem_eq_ok.mp h
  rw [mapM_eq_ok] at hp
  refine ⟨hp.imp fun _ _ h => inlines_resolveParameter.inPlace h, fun m => ?_⟩
  exact optionRel_imp (fun _ _ => resolves_resolveOperation) (optionMapM_eq_ok.mp (ho m))

theorem exists_resolvePathItem :
    (∃ item', c.resolvePathItem item = .ok item') ↔ item.Resolvable c := by
  constructor
  · rintro ⟨item', h⟩
    obtain ⟨hp, ho⟩ := resolvePathItem_eq_ok.mp h
    refine ⟨fun p hmem => ?_, fun m op hmem => ?_⟩
    · exact inlines_resolveParameter.exists_iff.mp (exists_mapM_eq_ok.mp ⟨_, hp⟩ p hmem)
    · exact exists_resolveOperation.mp (exists_optionMapM_eq_ok.mp ⟨_, ho m⟩ op hmem)
  · rintro ⟨hp, ho⟩
    obtain ⟨ps, hp⟩ := exists_mapM_eq_ok.mpr fun p h => inlines_resolveParameter.exists_iff.mpr (hp p h)
    have hops (m : Method) : ∃ op', (item.operation m).mapM c.resolveOperation = .ok op' :=
      exists_optionMapM_eq_ok.mpr fun op h => exists_resolveOperation.mpr (ho m op h)
    choose new hnew using hops
    refine ⟨⟨ps, new .get, new .post, new .put, new .delete, new .patch, new .options, new .head,
      new .trace⟩, resolvePathItem_eq_ok.mpr ⟨hp, fun m => ?_⟩⟩
    cases m <;> exact hnew _

end

theorem resolve_eq_ok : d.resolve = .ok d' ↔
    (d.paths.mapM fun e => return (e.1, ← d.sections.resolvePathItem e.2)) = .ok d'.paths ∧
    (∀ e ∈ d.sections.schemas, e.2.Known d.sections.schemas) ∧ d' = { d with paths := d'.paths } := by
  rw [resolve]
  simp only [bind_eq_ok, forM_eq_ok, Schema.check_eq_ok, pure_eq_ok]
  constructor
  · rintro ⟨paths, hp, _, hs, rfl⟩
    exact ⟨hp, hs, rfl⟩
  · rintro ⟨hp, hs, he⟩
    exact ⟨_, hp, (), hs, he.symm⟩

/-- What is resolved stays as it is. -/
theorem resolve_again (h : d.resolve = .ok d') : d'.resolve = .ok d' := by
  obtain ⟨hp, hs, he⟩ := resolve_eq_ok.mp h
  have hc : d'.sections = d.sections := by rw [he]; rfl
  rw [resolve_eq_ok, hc]
  refine ⟨mapM_again (fun e e' h => ?_) hp, hs, rfl⟩
  obtain ⟨_, h⟩ := keyed_eq_ok.mp h
  exact keyed_eq_ok.mpr ⟨rfl, resolvePathItem_again h⟩

theorem resolves_resolve (h : d.resolve = .ok d') : d.Resolves d' := by
  obtain ⟨hp, _, he⟩ := resolve_eq_ok.mp h
  refine ⟨(mapM_eq_ok.mp hp).imp fun e e' h => ?_, he⟩
  obtain ⟨hk, h⟩ := keyed_eq_ok.mp h
  exact ⟨hk, resolves_resolvePathItem h⟩

/-- A document can be resolved if and only if all its references lead somewhere. -/
theorem exists_resolve : (∃ d', d.resolve = .ok d') ↔ d.Resolvable := by
  have hitem (e : String × PathItem) :
      (∃ e', (do return (e.1, ← d.sections.resolvePathItem e.2)) = .ok e') ↔
        e.2.Resolvable d.sections := by
    rw [← exists_resolvePathItem]
    simp only [keyed_eq_ok]
    exact ⟨fun ⟨e', _, h⟩ => ⟨e'.2, h⟩, fun ⟨item, h⟩ => ⟨(e.1, item), rfl, h⟩⟩
  constructor
  · rintro ⟨d', h⟩
    obtain ⟨hp, hs, _⟩ := resolve_eq_ok.mp h
    exact ⟨fun e he => (hitem e).mp (exists_mapM_eq_ok.mp ⟨_, hp⟩ e he), hs⟩
  · rintro ⟨hp, hs⟩
    obtain ⟨paths, hp⟩ := exists_mapM_eq_ok.mpr fun e he => (hitem e).mpr (hp e he)
    exact ⟨{ d with paths }, resolve_eq_ok.mpr ⟨hp, hs, rfl⟩⟩

theorem Operation.Resolves.inline {op op' : Operation} (h : op.Resolves c op') : op'.Inline := by
  refine ⟨fun p hp => ?_, fun b hb => ?_, fun e he => ?_⟩
  · obtain ⟨_, _, value, _, hv⟩ := exists_of_forall₂ h.parameters hp
    exact ⟨value, hv⟩
  · obtain ⟨_, _, value, _, hv⟩ := exists_of_optionRel h.requestBody hb
    exact ⟨value, hv⟩
  · obtain ⟨_, _, _, value, _, hv⟩ := exists_of_forall₂ h.responses he
    exact ⟨value, hv⟩

theorem PathItem.Resolves.inline {item item' : PathItem} (h : item.Resolves c item') :
    item'.Inline := by
  refine ⟨fun p hp => ?_, fun m op hop => ?_⟩
  · obtain ⟨_, _, value, _, hv⟩ := exists_of_forall₂ h.parameters hp
    exact ⟨value, hv⟩
  · obtain ⟨_, _, hop⟩ := exists_of_optionRel (h.operations m) hop
    exact hop.inline

/-- Following references always ends. A document is resolved exactly if all its references lead
somewhere; then only the references of its paths are replaced, by the objects that they lead to, none
is left, and resolving the result changes nothing. -/
theorem resolve_exact (d : Document) :
    (∀ (α : Type) expected (entries : Entries String (RefOr α)) r result,
      Chases expected entries [] r result ↔ result = follow expected entries r) ∧
    ((∃ d', d.resolve = .ok d') ↔ d.Resolvable) ∧
    ∀ d', d.resolve = .ok d' →
      d.Resolves d' ∧ (∀ e ∈ d'.paths, e.2.Inline) ∧ d'.resolve = .ok d' := by
  refine ⟨fun _ _ _ _ _ => chases_iff, exists_resolve, fun d' h => ?_⟩
  have hr := resolves_resolve h
  refine ⟨hr, fun e he => ?_, resolve_again h⟩
  obtain ⟨_, _, _, hitem⟩ := exists_of_forall₂ hr.paths he
  exact hitem.inline

/-- The parameter of the path below. -/
def feedId : Parameter :=
  ⟨"id", .path, none, true, some (.ref "#/components/schemas/A")⟩

/-- An event stream under one path parameter, of schemas that refer to one another. -/
def feed (id : RefOr Parameter) : Document where
  openapi := "3.1.0"
  info := ⟨"Feed", none, "1"⟩
  servers := []
  paths := [("/feed/\x7bid\x7d", {
    parameters := [id]
    get := some {
      operationId := some "follow"
      summary := none
      description := none
      deprecated := false
      parameters := []
      requestBody := none
      responses := [("200", .inline ⟨[("text/event-stream",
        ⟨some (.ref "#/components/schemas/A"), none⟩)]⟩)] }
    post := none
    put := none
    delete := none
    patch := none
    options := none
    head := none
    trace := none })]
  components := some {
    schemas := [
      ("A", .inline { SchemaBody.empty with items := some (.ref "#/components/schemas/B") }),
      ("B", .inline { SchemaBody.empty with properties := [("a", .ref "#/components/schemas/A")] })]
    responses := []
    parameters := [("Id", .inline feedId)]
    requestBodies := [] }

theorem resolve_exact_feed : (feed (.ref "#/components/parameters/Id")).Resolvable ∧
    (feed (.ref "#/components/parameters/Id")).Resolves (feed (.inline feedId)) :=
  have h := resolve_exact (feed (.ref "#/components/parameters/Id"))
  ⟨h.2.1.mp ⟨_, rfl⟩, (h.2.2 (feed (.inline feedId)) rfl).1⟩

end ClientGen.Document
