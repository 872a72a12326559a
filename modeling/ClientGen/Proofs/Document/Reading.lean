import ClientGen.Document.Load
import ClientGen.Proofs.Entries
import ClientGen.Proofs.Outcome

/-! Documents that are read list every path and every component schema once, whatever the format of their
text. -/
namespace ClientGen
variable {m : Type → Type} [Monad m] [LawfulMonad m] {ν α β : Type} {P : α → Prop} {Q : β → Prop}
  {x : m α} {a : α}

/-- Whatever the computation returns has the property. -/
def Yields (P : α → Prop) (x : m α) : Prop := ∃ y : m {a // P a}, Subtype.val <$> y = x

theorem yields_pure (h : P a) : Yields P (pure a : m α) := ⟨pure ⟨a, h⟩, map_pure ..⟩

theorem yields_true (x : m α) : Yields (fun _ => True) x :=
  ⟨(⟨·, trivial⟩) <$> x, by rw [← comp_map]; exact id_map x⟩

theorem Yields.bind {f : α → m β} (hx : Yields P x) (hf : ∀ a, P a → Yields Q (f a)) :
    Yields Q (x >>= f) := by
  obtain ⟨y, rfl⟩ := hx
  choose g hg using hf
  refine ⟨y >>= fun a => g a.1 a.2, ?_⟩
  rw [map_bind, bind_map_left]
  exact bind_congr fun a => hg a.1 a.2

/-- What is returned first does not matter. -/
theorem yields_bind {f : α → m β} (hf : ∀ a, Yields Q (f a)) : Yields Q (x >>= f) :=
  (yields_true x).bind fun a _ => hf a

theorem Yields.of_option {x : Option α} (h : Yields P x) : ∀ a ∈ x, P a := by
  obtain ⟨y, rfl⟩ := h
  intro a ha
  obtain ⟨b, _, rfl⟩ := Option.map_eq_some_iff.mp ha
  exact b.2

theorem Yields.of_run' {σ : Type} {x : StateT σ Option α} (h : Yields P x) (s : σ) :
    ∀ a ∈ x.run' s, P a := by
  obtain ⟨y, rfl⟩ := h
  intro a ha
  rw [StateT.run'_eq, StateT.run_map] at ha
  obtain ⟨p, hp, rfl⟩ := Option.map_eq_some_iff.mp ha
  obtain ⟨q, _, rfl⟩ := Option.map_eq_some_iff.mp hp
  exact q.1.2

/-- Nothing is known to be returned where a failure is lifted. -/
theorem yields_failure [MonadLiftT Option m] [LawfulMonadLiftT Option m] :
    Yields P (liftM (none : Option α) : m α) :=
  ⟨liftM (none : Option {a // P a}), (monadLift_map Subtype.val none).symm⟩

theorem Record.yields_defaulted {r : Record ν} {name : String} {default : α} {read : ν → m α}
    (hd : P default) (hr : ∀ v, Yields P (read v)) : Yields P (r.defaulted name default read) := by
  rw [Record.defaulted]
  split
  · exact yields_pure hd
  · exact hr _

theorem yields_map? [Source m ν] {read : ν → m α} {v : ν} :
    Yields (fun es => (Entries.keys es).Nodup) (Source.map? read v : m (Entries String α)) :=
  yields_bind fun _ => yields_bind fun pairs => yields_pure (Entries.nodup_keys_ofList pairs)

section
variable [MonadLiftT Option m] [Source m ν]

theorem Record.yields_optional [LawfulMonadLiftT Option m] {r : Record ν} {name : String} {read : ν → m α}
    (hr : ∀ v, Yields P (read v)) : Yields (fun x => ∀ a ∈ x, P a) (r.optional name read) := by
  rw [Record.optional]
  split
  · split
    · exact yields_failure
    · exact yields_pure (fun _ h => nomatch h)
  · refine yields_bind fun present => ?_
    split
    · exact yields_pure (fun _ h => nomatch h)
    · exact (hr _).bind fun a ha => yields_pure (by simpa using ha)

namespace Document

theorem yields_components {v : ν} : Yields (fun c => (Entries.keys c.schemas).Nodup)
    (Components.read? v : m Components) := by
  refine yields_bind fun r => ?_
  have hr : Yields (fun es => (Entries.keys es).Nodup)
      (r.defaulted "schemas" [] (Source.map? Schema.read?) : m SchemaTable) :=
    r.yields_defaulted List.nodup_nil fun _ => yields_map?
  refine hr.bind fun schemas hs => ?_
  exact yields_bind fun _ => yields_bind fun _ => yields_bind fun _ => yields_pure hs

/-- No path and no component schema is listed twice. -/
structure ListedOnce (d : Document) : Prop where
  paths : (Entries.keys d.paths).Nodup
  schemas : (Entries.keys d.sections.schemas).Nodup

/-- Whatever the format, a document that is read names its paths and its component schemas apart. -/
theorem yields_read? [LawfulMonadLiftT Option m] {v : ν} :
    Yields ListedOnce (Document.read? v : m Document) := by
  refine yields_bind fun r => yields_bind fun _ => yields_bind fun _ => yields_bind fun _ => ?_
  have hpaths : Yields (fun es => (Entries.keys es).Nodup)
      (r.defaulted "paths" [] (Source.map? PathItem.read?) : m (Entries String PathItem)) :=
    r.yields_defaulted List.nodup_nil fun _ => yields_map?
  refine hpaths.bind fun paths hp => ?_
  refine (r.yields_optional fun _ => yields_components).bind fun components hc => yields_pure ⟨hp, ?_⟩
  cases components with
  | none => exact List.nodup_nil
  | some c => exact hc c rfl

end Document
end

theorem Document.listedOnce_ofText? {format : Format} {text : String} {d : Document}
    (h : ofText? format text = some d) : d.ListedOnce := by
  cases format with
  | json =>
    obtain ⟨node, _, hd⟩ := Option.bind_eq_some_iff.mp h
    exact yields_read?.of_option d hd
  | yaml =>
    obtain ⟨node, _, hd⟩ := Option.bind_eq_some_iff.mp h
    exact yields_read?.of_run' _ d hd

/-- Names of paths and component schemas are never repeated, since a later one replaces an earlier one. -/
theorem Document.listedOnce_parse {format : Format} {text : String} {d : Document}
    (h : parse format text = .ok d) : d.ListedOnce := by
  rw [parse] at h
  split at h
  · rename_i d' hd
    rw [checkVersion] at h
    split at h
    · cases h
      exact listedOnce_ofText? hd
    · cases h
  · cases h

theorem Document.nodup_schemas_parse {format : Format} {text : String} {d : Document}
    (h : parse format text = .ok d) : (Entries.keys d.sections.schemas).Nodup :=
  (listedOnce_parse h).schemas

end ClientGen
