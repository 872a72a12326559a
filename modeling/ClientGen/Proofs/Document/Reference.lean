import ClientGen.Document.Reference

/-! The paths that references are made of, and the names read back from them. -/
namespace ClientGen
variable {mark : Char} {front s rest a b : List Char} {expected found path name : String}

namespace Text

theorem after?_eq_some : after? front s = some rest ↔ s = front ++ rest := by
  induction front generalizing s with
  | nil => simp [after?]
  | cons f front ih =>
    cases s with
    | nil => simp [after?]
    | cons c s =>
      by_cases h : f = c
      · simp [after?, h, ih]
      · simp [after?, h, Ne.symm h]

theorem cut?_eq_some : cut? mark s = some (a, b) ↔ s = a ++ mark :: b ∧ mark ∉ a := by
  induction s generalizing a with
  | nil => simp [cut?]
  | cons c s ih =>
    by_cases h : c = mark
    · subst h
      cases a <;> simp [cut?, eq_comm]
      grind
    · cases a with
      | nil => simp [cut?, h]
      | cons d a =>
        simp [cut?, h, ih]
        grind

end Text

namespace Reference

/-- The path of a named entry of a section. -/
def toEntry (found name : String) : String := "#/components/" ++ found ++ "/" ++ name

theorem toList_toEntry (found name : String) :
    (toEntry found name).toList = root ++ (found.toList ++ '/' :: name.toList) := by
  have hs : "/".toList = ['/'] := rfl
  rw [toEntry, String.toList_append, String.toList_append, String.toList_append, hs,
    List.append_assoc, List.append_assoc, List.singleton_append]
  unfold root
  with_reducible rfl

theorem toEntry_injective {name' : String} (h : toEntry found name = toEntry found name') :
    name = name' := by
  rw [← String.toList_inj, toList_toEntry, toList_toEntry] at h
  have hn := List.append_cancel_left (List.append_cancel_left h)
  exact String.toList_inj.mp (List.cons.inj hn).2

/-- How a path is taken apart: at the first slash after the root. -/
theorem cut?_after?_eq_some :
    (Text.after? root path.toList).bind (Text.cut? '/') = some (a, b) ↔
      path.toList = root ++ (a ++ '/' :: b) ∧ '/' ∉ a := by
  rw [Option.bind_eq_some_iff]
  constructor
  · rintro ⟨s, hs, hc⟩
    obtain ⟨rfl, ha⟩ := Text.cut?_eq_some.mp hc
    exact ⟨Text.after?_eq_some.mp hs, ha⟩
  · rintro ⟨hp, ha⟩
    exact ⟨_, Text.after?_eq_some.mpr hp, Text.cut?_eq_some.mpr ⟨rfl, ha⟩⟩

/-- No other path is read as the name of an entry. -/
theorem eq_toEntry_of_target (h : target expected path = .ok name) : path = toEntry expected name := by
  rw [target] at h
  split at h
  · cases h
  · rename_i found rest hc
    split at h
    · rename_i he
      cases h
      subst he
      rw [← String.toList_inj, toList_toEntry, String.toList_ofList, String.toList_ofList]
      exact (cut?_after?_eq_some.mp hc).1
    · cases h

theorem target_toEntry (h : '/' ∉ expected.toList) (name : String) :
    target expected (toEntry expected name) = .ok name := by
  rw [target, cut?_after?_eq_some.mpr ⟨toList_toEntry expected name, h⟩]
  simp

/-- The other parser of schema references agrees on the paths that it accepts. -/
theorem eq_toEntry_of_schemaName? (h : schemaName? path = some name) : path = toEntry "schemas" name := by
  rw [schemaName?] at h
  split at h
  · rename_i c rest hr
    cases h
    have hs : "schemas/".toList = "schemas".toList ++ ['/'] := rfl
    have hn : (String.ofList (c :: rest)).toList = c :: rest := String.toList_ofList
    rw [← String.toList_inj, toList_toEntry, hn, Text.after?_eq_some.mp hr, hs, List.append_assoc,
      List.append_assoc, List.singleton_append]
  · cases h

theorem schemaName?_toEntry (h : name ≠ "") : schemaName? (toEntry "schemas" name) = some name := by
  have hpath : Text.after? (root ++ "schemas/".toList) (toEntry "schemas" name).toList = some name.toList := by
    have hs : "schemas/".toList = "schemas".toList ++ ['/'] := rfl
    rw [Text.after?_eq_some, toList_toEntry, hs, List.append_assoc, List.append_assoc, List.singleton_append]
  rw [schemaName?, hpath]
  cases hname : name.toList with
  | nil => exact (h (String.toList_eq_nil_iff.mp hname)).elim
  | cons c rest => simp [← hname]

end Reference
end ClientGen
