import ClientGen.Proofs.Casing
import ClientGen.Proofs.Renaming.Isomorphism

/-! The new names of schemas are words: letters and digits of ASCII, and a letter first. -/
namespace ClientGen
open Api (Operation SchemaRecord)
open Letter

namespace Identifier
variable {s value filler subject name base : String} {used : List String}

/-- Letters and digits of ASCII, and a letter first. -/
structure IsWord (s : String) : Prop where
  first : ∃ c ∈ s.toList.head?, c.isDigit = false
  letters : ∀ c ∈ s.toList, isAsciiAlnum c

theorem IsWord.append (h : IsWord s) (ht : ∀ c ∈ value.toList, isAsciiAlnum c) : IsWord (s ++ value) := by
  obtain ⟨⟨c, hc, hletter⟩, hs⟩ := h
  refine ⟨⟨c, ?_, hletter⟩, ?_⟩
  · rw [String.toList_append, List.head?_append, Option.mem_def.mp hc]
    rfl
  · rw [String.toList_append]
    exact List.forall_mem_append.mpr ⟨hs, ht⟩

/-- What sanitizing leaves is a word, unless nothing is left or a digit comes first. -/
theorem isWord_sanitize {c : Char} (hc : c ∈ (sanitize value).toList.head?) (hletter : c.isDigit = false) :
    IsWord (sanitize value) := by
  refine ⟨⟨c, hc, hletter⟩, ?_⟩
  rw [sanitize, String.toList_ofList]
  exact ascii_sanitizeFrom false value.toList

theorem isWord_checked (h : checked subject value = .ok name) : IsWord name := by
  rw [checked] at h
  split at h
  · cases h
  · rename_i c rest hs
    cases hc : c.isDigit with
    | true => simp [hc] at h
    | false =>
      obtain rfl : sanitize value = name := by simpa [hc] using h
      exact isWord_sanitize (by simp [hs]) hc

theorem isWord_repaired (hf : IsWord filler) (value : String) : IsWord (repaired value filler) := by
  rw [repaired]
  split
  · exact hf
  · rename_i c rest hs
    cases hc : c.isDigit with
    | true =>
      refine hf.append ?_
      rw [sanitize, String.toList_ofList]
      exact ascii_sanitizeFrom false value.toList
    | false => exact isWord_sanitize (by simp [hs]) hc

theorem ascii_toString (n : Nat) : ∀ c ∈ (toString n).toList, isAsciiAlnum c := by
  intro c hc
  rw [Nat.toString_eq_repr, Nat.toList_repr] at hc
  have hdigit : c.isDigit := Nat.isDigit_of_mem_toDigits (by decide) (by decide) hc
  simp [isAsciiAlnum, hdigit]

theorem isWord_fresh (h : IsWord base) (used : List String) : IsWord (fresh used base) := by
  have hfresh := isFresh_fresh used base
  rw [IsFresh] at hfresh
  split at hfresh
  · obtain ⟨n, -, -, he, -⟩ := hfresh
    rw [he]
    exact h.append (ascii_toString n)
  · rwa [hfresh]

end Identifier

namespace Renaming
open Identifier (IsWord)
variable {t : MappingTable} {ops ops' : List Operation} {schemas schemas' : List SchemaRecord}
  {r r' : Renaming} {names : Entries String String} {used : List String} {a n : String}

/-- Every name that is given is a word. -/
def GivesWords (names : Entries String String) : Prop := ∀ e ∈ names, IsWord e.2

theorem GivesWords.put (h : GivesWords names) (hn : IsWord n) : GivesWords (names.put a n) := by
  intro e he
  rcases Entries.mem_put he with rfl | he
  · exact hn
  · exact h e he

theorem givesWords_choose (h : choose t schemas r = .ok r') (hr : GivesWords r.names) :
    GivesWords r'.names := by
  induction schemas generalizing r with
  | nil =>
    cases h
    exact hr
  | cons s rest ih =>
    rcases choose_cons h with ⟨-, h⟩ | ⟨target, name, -, hn, -, h⟩
    · exact ih h hr
    · exact ih h (hr.put (Identifier.isWord_checked hn))

theorem givesWords_repair (h : repair schemas used r = .ok r') (hr : GivesWords r.names) :
    GivesWords r'.names := by
  have filler : IsWord "Schema" := ⟨⟨'S', by decide, by decide⟩, List.all_eq_true.mp (by decide)⟩
  induction schemas generalizing r used with
  | nil =>
    cases h
    exact hr
  | cons s rest ih =>
    rcases repair_cons h with ⟨-, h⟩ | ⟨name, -, -, hn, h⟩
    · exact ih h hr
    · have hword := Identifier.isWord_fresh (Identifier.isWord_repaired filler s.declaredName) used
      exact ih h (hr.put (hn ▸ hword))

theorem givesWords_ofTable (h : ofTable t schemas = .ok r) : GivesWords r.names := by
  obtain ⟨chosen, hc, hr⟩ := ofTable_eq_ok h
  exact givesWords_repair hr (givesWords_choose hc fun _ he => nomatch he)

/-- Whatever schemas are called, and whatever a table wants them to be called, they come out with words. -/
theorem isWord_names (h : t.apply ops schemas = .ok (ops', schemas')) : ∀ s ∈ schemas', IsWord s.name := by
  obtain ⟨r, ids, hr, -, -, rfl⟩ := MappingTable.apply_eq_ok.mp h
  intro s hs
  obtain ⟨old, hold, rfl⟩ := List.mem_map.mp hs
  obtain ⟨n, hn⟩ := exists_get?_ofTable hr (List.mem_map_of_mem hold)
  have hname : (old.rename r.apply).name = n := apply_eq_of_get? hn
  rw [hname]
  exact givesWords_ofTable hr _ (Entries.mem_of_get? hn)

end Renaming
end ClientGen
