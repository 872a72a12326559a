import Mathlib.Order.Bounds.Basic
import ClientGen.Api.Response
import ClientGen.Proofs.Entries

/-! How responses are classified. Only what is written in place under a successful status counts, and the
least of these statuses decides: of those with a supported body for the shape, and of those with a stream of
one kind for the stream. -/
namespace ClientGen
open Document (MediaType Response)
variable {β : Type} {b : β} {table : SchemaTable} {content : Entries String MediaType}
  {expected : String} {m : MediaType} {r : Response} {s : Shape}

/-! ### Media types of one response -/

namespace Document

/-- The first entry whose key names a media type. -/
def MediaType.IsFirst (content : Entries String MediaType) (expected : String) (m : MediaType) : Prop :=
  ∃ before key after, content = before ++ (key, m) :: after ∧ matchesKey key expected ∧
    ∀ e ∈ before, ¬matchesKey e.1 expected

namespace Response

/-- Whether some key of the content names a media type. -/
def Has (r : Response) (expected : String) : Prop := ∃ e ∈ r.content, MediaType.matchesKey e.1 expected

/-- Whether the body can be typed. -/
def IsSupported (r : Response) : Prop :=
  r.Has MediaType.json ∨ r.Has MediaType.eventStream ∨ r.Has MediaType.ndjson

/-- The shape of the body: JSON goes before an event stream, and that before NDJSON. What is streamed is
described by its items, where these are. -/
inductive HasShape (table : SchemaTable) (r : Response) : Shape → Prop
  | json {m : MediaType} : MediaType.IsFirst r.content MediaType.json m →
      HasShape table r (m.schema.elim .unknown (Schema.shape table))
  | eventStream {m : MediaType} : ¬r.Has MediaType.json →
      MediaType.IsFirst r.content MediaType.eventStream m →
      HasShape table r ((m.itemSchema.or m.schema).elim .unknown (Schema.shape table))
  | ndjson {m : MediaType} : ¬r.Has MediaType.json → ¬r.Has MediaType.eventStream →
      MediaType.IsFirst r.content MediaType.ndjson m →
      HasShape table r ((m.itemSchema.or m.schema).elim .unknown (Schema.shape table))

end Response

theorem MediaType.find?_eq_some_iff : find? content expected = some m ↔ IsFirst content expected m := by
  simp only [find?, Option.map_eq_some_iff, List.find?_eq_some_iff_append, Bool.not_eq_true',
    ← Bool.not_eq_true]
  constructor
  · rintro ⟨⟨key, _⟩, ⟨hkey, before, after, hcontent, hbefore⟩, rfl⟩
    exact ⟨before, key, after, hcontent, hkey, hbefore⟩
  · rintro ⟨before, key, after, hcontent, hkey, hbefore⟩
    exact ⟨(key, m), ⟨hkey, before, after, hcontent, hbefore⟩, rfl⟩

theorem Response.find?_eq_none_iff : MediaType.find? r.content expected = none ↔ ¬r.Has expected := by
  rw [MediaType.find?, Option.map_eq_none_iff, List.find?_eq_none, Has]
  exact ⟨fun h ⟨e, he, hkey⟩ => h e he hkey, fun h e he hkey => h ⟨e, he, hkey⟩⟩

theorem Response.isSome_find?_iff : (MediaType.find? r.content expected).isSome ↔ r.Has expected := by
  rw [← not_iff_not, ← find?_eq_none_iff, Option.not_isSome_iff_eq_none]

end Document

namespace Api
variable {responses responses' : Entries String (RefOr Response)} {status : Nat}

theorem bodyShape?_eq_some_iff : bodyShape? table r = some s ↔ r.HasShape table s := by
  rw [bodyShape?]
  cases hjson : MediaType.find? r.content MediaType.json with
  | some m =>
    have hhas : r.Has MediaType.json := Response.isSome_find?_iff.mp (by rw [hjson]; rfl)
    constructor
    · intro h
      cases h
      exact .json (MediaType.find?_eq_some_iff.mp hjson)
    · intro h
      cases h with
      | json hm =>
        cases hjson.symm.trans (MediaType.find?_eq_some_iff.mpr hm)
        rfl
      | eventStream hnone => exact (hnone hhas).elim
      | ndjson hnone => exact (hnone hhas).elim
  | none =>
    have hnojson := Response.find?_eq_none_iff.mp hjson
    constructor
    · intro h
      obtain ⟨m, hm, rfl⟩ := Option.map_eq_some_iff.mp h
      rcases Option.or_eq_some_iff.mp hm with hm | ⟨hnone, hm⟩
      · exact .eventStream hnojson (MediaType.find?_eq_some_iff.mp hm)
      · exact .ndjson hnojson (Response.find?_eq_none_iff.mp hnone) (MediaType.find?_eq_some_iff.mp hm)
    · intro h
      cases h with
      | json hm => cases hjson.symm.trans (MediaType.find?_eq_some_iff.mpr hm)
      | eventStream _ hm =>
        rw [MediaType.find?_eq_some_iff.mpr hm]
        rfl
      | ndjson _ hnone hm =>
        rw [Response.find?_eq_none_iff.mpr hnone, MediaType.find?_eq_some_iff.mpr hm]
        rfl

theorem isSome_bodyShape?_iff : (bodyShape? table r).isSome ↔ r.IsSupported := by
  simp only [Response.IsSupported, ← Response.isSome_find?_iff, bodyShape?]
  cases MediaType.find? r.content MediaType.json <;> simp

/-! ### The least status -/

/-- The response that is written in place under a status. -/
def Answers (responses : Entries String (RefOr Response)) (status : Nat) (r : Response) : Prop :=
  (toString status, .inline r) ∈ responses

/-- Whether a response of a kind is written in place under a successful status. -/
def Succeeds (responses : Entries String (RefOr Response)) (P : Response → Prop) (status : Nat) : Prop :=
  200 ≤ status ∧ status ≤ 204 ∧ ∃ r, Answers responses status r ∧ P r

/-- The response of a kind under the least successful status that has one. -/
def IsLeastAnswer (responses : Entries String (RefOr Response)) (P : Response → Prop) (r : Response) : Prop :=
  ∃ status, IsLeast {n | Succeeds responses P n} status ∧ Answers responses status r

/-- What is found first along numbers in their order is found at the least of them. -/
theorem findSome?_range'_eq_some_iff {f : Nat → Option β} {a k : Nat} :
    (List.range' a k).findSome? f = some b ↔
      ∃ n, IsLeast {n | a ≤ n ∧ n < a + k ∧ (f n).isSome} n ∧ f n = some b := by
  induction k generalizing a with
  | zero =>
    simp only [List.range'_zero, List.findSome?_nil, reduceCtorEq, false_iff, not_exists]
    rintro n ⟨⟨⟨hle, hlt, -⟩, -⟩, -⟩
    omega
  | succ k ih =>
    rw [List.range'_succ, List.findSome?_cons]
    cases hf : f a with
    | some c =>
      have hmem : a ∈ {n | a ≤ n ∧ n < a + (k + 1) ∧ (f n).isSome} :=
        ⟨Nat.le_refl a, by omega, by simp [hf]⟩
      have hleast : IsLeast {n | a ≤ n ∧ n < a + (k + 1) ∧ (f n).isSome} a := ⟨hmem, fun n hn => hn.1⟩
      constructor
      · rintro h
        exact ⟨a, hleast, hf.trans h⟩
      · rintro ⟨n, hn, hb⟩
        rw [hn.unique hleast] at hb
        exact hf.symm.trans hb
    | none =>
      have hset : {n | a ≤ n ∧ n < a + (k + 1) ∧ (f n).isSome} =
          {n | a + 1 ≤ n ∧ n < a + 1 + k ∧ (f n).isSome} := by
        ext n
        simp only [Set.mem_ofPred_eq]
        rcases eq_or_ne n a with rfl | hne
        · simp [hf]
        · constructor <;> rintro ⟨hle, hlt, hn⟩ <;> exact ⟨by omega, by omega, hn⟩
      rw [hset]
      exact ih

/-- The answer under a status, if there is one. -/
def answer? (responses : Entries String (RefOr Response)) (status : Nat) : Option Response :=
  (Entries.get? responses (toString status)).bind RefOr.inline?

theorem answer?_eq_some_iff (hd : (Entries.keys responses).Nodup) :
    answer? responses status = some r ↔ Answers responses status r := by
  rw [answer?, Option.bind_eq_some_iff, Answers]
  constructor
  · rintro ⟨value, hvalue, hinline⟩
    cases value with
    | ref path => cases hinline
    | inline value =>
      cases hinline
      exact Entries.mem_of_get? hvalue
  · intro h
    exact ⟨_, (Entries.get?_eq_some_iff_mem hd).mpr h, rfl⟩

theorem successes_eq (responses : Entries String (RefOr Response)) :
    successes responses = (List.range' 200 5).filterMap (answer? responses) := by
  have hstatuses : successStatuses = (List.range' 200 5).map toString := by decide
  rw [successes, hstatuses, List.filterMap_map]
  rfl

theorem mem_successes_iff (hd : (Entries.keys responses).Nodup) :
    r ∈ successes responses ↔ ∃ n, 200 ≤ n ∧ n ≤ 204 ∧ Answers responses n r := by
  simp only [successes_eq, List.mem_filterMap, List.mem_range'_1, answer?_eq_some_iff hd, and_assoc,
    Nat.lt_succ_iff]

/-- No more is read of the responses than the answers under successful statuses. -/
theorem successes_congr (hd : (Entries.keys responses).Nodup) (hd' : (Entries.keys responses').Nodup)
    (h : ∀ n, 200 ≤ n → n ≤ 204 → ∀ r, Answers responses n r ↔ Answers responses' n r) :
    successes responses = successes responses' := by
  rw [successes_eq, successes_eq]
  refine List.filterMap_congr fun n hn => Option.ext fun r => ?_
  obtain ⟨hle, hlt⟩ := List.mem_range'_1.mp hn
  rw [answer?_eq_some_iff hd, answer?_eq_some_iff hd', h n hle (by omega) r]

theorem findSome?_filterMap {α γ : Type} {g : α → Option γ} {f : γ → Option β} {xs : List α} :
    (xs.filterMap g).findSome? f = xs.findSome? fun x => (g x).bind f := by
  induction xs with
  | nil => rfl
  | cons x xs ih =>
    rw [List.filterMap_cons, List.findSome?_cons]
    cases g x with
    | none => exact ih
    | some c =>
      rw [Option.bind_some, List.findSome?_cons, ih]

theorem isSome_bind_answer?_iff (hd : (Entries.keys responses).Nodup) {f : Response → Option β} :
    ((answer? responses status).bind f).isSome ↔ ∃ r, Answers responses status r ∧ (f r).isSome := by
  simp only [← answer?_eq_some_iff hd]
  cases answer? responses status <;> simp

/-- What is found first among the successes is found in the response under the least status that has it. -/
theorem findSome?_successes_eq_some_iff (hd : (Entries.keys responses).Nodup) {f : Response → Option β} :
    (successes responses).findSome? f = some b ↔
      ∃ r, IsLeastAnswer responses (fun r => (f r).isSome) r ∧ f r = some b := by
  have hset : {n | 200 ≤ n ∧ n < 200 + 5 ∧ ((answer? responses n).bind f).isSome} =
      {n | Succeeds responses (fun r => (f r).isSome) n} := by
    ext n
    simp only [Set.mem_ofPred_eq, Succeeds, isSome_bind_answer?_iff hd]
    exact ⟨fun ⟨hle, hlt, h⟩ => ⟨hle, by omega, h⟩, fun ⟨hle, hlt, h⟩ => ⟨hle, by omega, h⟩⟩
  rw [successes_eq, findSome?_filterMap, findSome?_range'_eq_some_iff, hset]
  simp only [Option.bind_eq_some_iff, answer?_eq_some_iff hd, IsLeastAnswer]
  constructor
  · rintro ⟨n, hn, r, hr, hb⟩
    exact ⟨r, ⟨n, hn, hr⟩, hb⟩
  · rintro ⟨r, ⟨n, hn, hr⟩, hb⟩
    exact ⟨n, hn, r, hr, hb⟩

theorem findSome?_successes_eq_none_iff (hd : (Entries.keys responses).Nodup) {f : Response → Option β} :
    (successes responses).findSome? f = none ↔ ¬∃ n, Succeeds responses (fun r => (f r).isSome) n := by
  simp only [List.findSome?_eq_none_iff, mem_successes_iff hd, Succeeds, not_exists, not_and,
    Option.not_isSome_iff_eq_none]
  exact ⟨fun h n hle hlt r hr => h r ⟨n, hle, hlt, hr⟩, fun h r ⟨n, hle, hlt, hr⟩ => h n hle hlt r hr⟩

/-! ### The whole -/

/-- What is streamed under a media type: the items of the first such entry under the least status that has
one. -/
def Streams (table : SchemaTable) (responses : Entries String (RefOr Response)) (expected : String)
    (item : Shape) : Prop :=
  ∃ r m, IsLeastAnswer responses (·.Has expected) r ∧ MediaType.IsFirst r.content expected m ∧
    item = (m.itemSchema.or m.schema).elim .unknown (Schema.shape table)

/-- The classification of responses. -/
structure Classifies (table : SchemaTable) (responses : Entries String (RefOr Response))
    (info : ResponseInfo) : Prop where
  shape : ∀ s, info.shape = some s ↔
    ∃ r, IsLeastAnswer responses Response.IsSupported r ∧ r.HasShape table s
  noShape : info.shape = none ↔ ¬∃ n, Succeeds responses Response.IsSupported n
  sse : ∀ item, info.stream = some ⟨.sse, item⟩ ↔ Streams table responses MediaType.eventStream item
  ndjson : ∀ item, info.stream = some ⟨.ndjson, item⟩ ↔
    (¬∃ n, Succeeds responses (·.Has MediaType.eventStream) n) ∧
      Streams table responses MediaType.ndjson item
  noStream : info.stream = none ↔ (¬∃ n, Succeeds responses (·.Has MediaType.eventStream) n) ∧
    ¬∃ n, Succeeds responses (·.Has MediaType.ndjson) n
  shape_of_stream : info.stream.isSome → info.shape.isSome

/-- The first stream of a kind. -/
def stream? (table : SchemaTable) (responses : Entries String (RefOr Response)) (kind : StreamKind)
    (expected : String) : Option Stream :=
  ((successes responses).findSome? fun r => MediaType.find? r.content expected).map
    fun m => ⟨kind, shapeOfOptional table m.streamItem⟩

theorem stream_classify : (classify table responses).stream =
    (stream? table responses .sse MediaType.eventStream).or
      (stream? table responses .ndjson MediaType.ndjson) := rfl

theorem stream?_eq_some_iff (hd : (Entries.keys responses).Nodup) {kind : StreamKind} {st : Stream} :
    stream? table responses kind expected = some st ↔
      st.kind = kind ∧ Streams table responses expected st.item := by
  simp only [stream?, Option.map_eq_some_iff, findSome?_successes_eq_some_iff hd, Response.isSome_find?_iff,
    MediaType.find?_eq_some_iff, Streams]
  constructor
  · rintro ⟨m, ⟨r, hr, hm⟩, rfl⟩
    exact ⟨rfl, r, m, hr, hm, rfl⟩
  · rintro ⟨rfl, r, m, hr, hm, hitem⟩
    obtain ⟨kind, item⟩ := st
    cases hitem
    exact ⟨m, ⟨r, hr, hm⟩, rfl⟩

theorem stream?_eq_none_iff (hd : (Entries.keys responses).Nodup) {kind : StreamKind} :
    stream? table responses kind expected = none ↔ ¬∃ n, Succeeds responses (·.Has expected) n := by
  simp only [stream?, Option.map_eq_none_iff, findSome?_successes_eq_none_iff hd, Response.isSome_find?_iff]

/-- Whatever is streamed is answered with. -/
theorem Succeeds.isSupported {P : Response → Prop} (hP : ∀ r, P r → r.IsSupported)
    (h : Succeeds responses P status) : Succeeds responses Response.IsSupported status := by
  obtain ⟨hle, hlt, r, hr, hp⟩ := h
  exact ⟨hle, hlt, r, hr, hP r hp⟩

theorem classifies_classify (table : SchemaTable) (hd : (Entries.keys responses).Nodup) :
    Classifies table responses (classify table responses) := by
  have noShape : (classify table responses).shape = none ↔
      ¬∃ n, Succeeds responses Response.IsSupported n := by
    simp only [classify, findSome?_successes_eq_none_iff hd, isSome_bodyShape?_iff]
  have noStream : (classify table responses).stream = none ↔
      (¬∃ n, Succeeds responses (·.Has MediaType.eventStream) n) ∧
        ¬∃ n, Succeeds responses (·.Has MediaType.ndjson) n := by
    rw [stream_classify, Option.or_eq_none_iff, stream?_eq_none_iff hd, stream?_eq_none_iff hd]
  refine ⟨fun s => ?_, noShape, fun item => ?_, fun item => ?_, noStream, fun hsome => ?_⟩
  · simp only [classify, findSome?_successes_eq_some_iff hd, isSome_bodyShape?_iff, bodyShape?_eq_some_iff]
  · rw [stream_classify, Option.or_eq_some_iff, stream?_eq_some_iff hd, stream?_eq_some_iff hd]
    simp
  · rw [stream_classify, Option.or_eq_some_iff, stream?_eq_some_iff hd, stream?_eq_some_iff hd,
      stream?_eq_none_iff hd]
    simp
  · -- a stream of either kind is a supported body under the same status
    by_contra hshape
    have hnone := noShape.mp (Option.not_isSome_iff_eq_none.mp hshape)
    rw [noStream.mpr ⟨fun ⟨n, hn⟩ => hnone ⟨n, hn.isSupported fun _ h => .inr (.inl h)⟩,
      fun ⟨n, hn⟩ => hnone ⟨n, hn.isSupported fun _ h => .inr (.inr h)⟩⟩] at hsome
    cases hsome

/-- Responses are classified by the least successful statuses with a body, and with a stream. Only what is
written in place under these statuses counts, wherever it stands among the responses. The shapes are those that
`Schema.shape` gives, which is `unknown` where a conversion never ends. -/
theorem classify_exact (table : SchemaTable) (hd : (Entries.keys responses).Nodup) :
    Classifies table responses (classify table responses) ∧
      ∀ responses', (Entries.keys responses').Nodup →
        (∀ n, 200 ≤ n → n ≤ 204 → ∀ r, Answers responses n r ↔ Answers responses' n r) →
        classify table responses = classify table responses' := by
  refine ⟨classifies_classify table hd, fun responses' hd' h => ?_⟩
  rw [classify, classify, successes_congr hd hd' h]

/-- A failure, a stream before JSON under a lesser status, and a reference that is not resolved. -/
def mixedResponses : Entries String (RefOr Response) :=
  let typed (type : JsonType) : Schema := .inline { SchemaBody.empty with type := some (.single type) }
  [("404", .inline ⟨[("application/json", ⟨some (typed .string), none⟩)]⟩),
    ("201", .inline ⟨[("application/x-ndjson", ⟨none, some (typed .integer)⟩)]⟩),
    ("200", .inline ⟨[("Application/JSON; charset=utf-8", ⟨some (typed .boolean), none⟩)]⟩),
    ("202", .ref "#/components/responses/Page")]

theorem classify_exact_mixed : (Entries.keys mixedResponses).Nodup ∧
    (Entries.keys mixedResponses.reverse).Nodup ∧
    Classifies [] mixedResponses (classify [] mixedResponses) ∧
    classify [] mixedResponses = classify [] mixedResponses.reverse ∧
    (classify [] mixedResponses).shape = some .boolean ∧
    (classify [] mixedResponses).stream = some ⟨.ndjson, .integer none⟩ := by
  have hd : (Entries.keys mixedResponses).Nodup := by decide
  have hd' : (Entries.keys mixedResponses.reverse).Nodup := by decide
  obtain ⟨hclassifies, hanywhere⟩ := classify_exact [] hd
  exact ⟨hd, hd', hclassifies, hanywhere _ hd' fun n _ _ r => List.mem_reverse.symm, rfl, rfl⟩

end Api
end ClientGen
