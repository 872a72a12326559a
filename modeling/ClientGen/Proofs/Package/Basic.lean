import ClientGen.Artifact
import ClientGen.Proofs.Model
import ClientGen.Proofs.Signature

/-! What the files of both targets are made of: collected names, planned files and blocks of lines. -/
namespace ClientGen
variable {a : String} {op : Api.Operation} {m : Model} {o : Options} {types : TypeMap}

theorem mem_foldl_addNew {xs ys : List String} : a ∈ xs.foldl addNew ys ↔ a ∈ ys ∨ a ∈ xs := by
  induction xs generalizing ys with
  | nil => simp
  | cons x xs ih =>
    have hx : a ∈ addNew ys x ↔ a = x ∨ a ∈ ys := by
      rw [addNew]
      split
      · rename_i hx
        exact ⟨.inr, fun h => h.elim (fun h => h ▸ hx) id⟩
      · rw [List.mem_append, List.mem_singleton, or_comm]
    rw [List.foldl_cons, ih, hx, List.mem_cons, or_comm (a := a = x), or_assoc]

/-- Sorting and leaving out repetitions neither adds nor loses a name. -/
theorem mem_sortTexts_addNew {xs : List String} : a ∈ sortTexts (xs.foldl addNew []) ↔ a ∈ xs := by
  rw [sortTexts, List.mem_mergeSort, mem_foldl_addNew, or_iff_right List.not_mem_nil]

/-- In what order names come, and how often, is lost once they are collected and sorted. -/
theorem sortTexts_addNew_congr {xs ys : List String} (h : ∀ a, a ∈ xs ↔ a ∈ ys) :
    sortTexts (xs.foldl addNew []) = sortTexts (ys.foldl addNew []) := by
  rw [sortTexts_eq_iff, List.perm_ext_iff_of_nodup (Entries.nodup_foldl_addNew xs)
    (Entries.nodup_foldl_addNew ys)]
  intro a
  rw [mem_foldl_addNew, mem_foldl_addNew, h a]

theorem Lines.mem_apart {l : String} {ls : Lines} {blocks : List Lines} (hl : l ∈ ls)
    (hls : ls ∈ blocks) : l ∈ Lines.apart blocks := by
  induction blocks with
  | nil => cases hls
  | cons block blocks ih =>
    cases blocks with
    | nil => exact List.mem_singleton.mp hls ▸ hl
    | cons next rest =>
      rw [Lines.apart, List.mem_append, List.mem_cons]
      rcases List.mem_cons.mp hls with rfl | hls
      · exact .inl hl
      · exact .inr (.inr (ih hls))
      · exact fun h => nomatch h

/-- The types that a view lists are those that its shapes are given. -/
theorem OperationView.mem_namedTypes (write : TypeWriter) : a ∈ (OperationView.of types write op).namedTypes ↔
    ∃ type ∈ types.typesOf op, type.Mentions a := by
  simp only [OperationView.of, mem_foldl_addNew, List.mem_filterMap, TypeExpr.mentions_iff,
    List.not_mem_nil, false_or]

/-- A file with decoders is planned as soon as one operation streams. -/
theorem Model.streaming_mem_plan (hop : op ∈ m.operations) (hs : op.stream ≠ none) :
    .streaming ∈ m.plan o := by
  have hm : m.isStreaming := List.any_eq_true.mpr ⟨op, hop, Option.isSome_iff_ne_none.mpr hs⟩
  simp [Model.plan, hm]

end ClientGen
