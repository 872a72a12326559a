import ClientGen.Package
import ClientGen.Proofs.Casing

/-! The names of members of generated classes. They tell the words of the names that they are made
from, as keywords are only moved away by underscores at an end. -/
namespace ClientGen
variable {a b : String} {x y z z' : List Char} {fixed names : List String} {target : Target}

/-! ### Underscores at the ends -/

/-- Neither begins nor ends with an underscore. -/
def Trimmed (x : List Char) : Prop := x ≠ [] ∧ x.head? ≠ some '_' ∧ x.getLast? ≠ some '_'

instance : Decidable (Trimmed x) := inferInstanceAs (Decidable (_ ∧ _))

/-- The same text with underscores at its ends. -/
def Padded (x z : List Char) : Prop :=
  ∃ front back, (∀ c ∈ front, c = '_') ∧ (∀ c ∈ back, c = '_') ∧ z = front ++ x ++ back

theorem Trimmed.reverse (h : Trimmed x) : Trimmed x.reverse := by
  simpa [Trimmed, and_comm] using h

theorem trimmed_of_not_mem (hx : x ≠ []) (h : '_' ∉ x) : Trimmed x :=
  ⟨hx, fun he => h (List.mem_of_mem_head? he), fun he => h (List.mem_of_mem_getLast? he)⟩

theorem Trimmed.append (hx : Trimmed x) (hy : Trimmed y) (z : List Char) : Trimmed (x ++ z ++ y) := by
  obtain ⟨hx, hhead, -⟩ := hx
  obtain ⟨hy, -, hlast⟩ := hy
  refine ⟨by simp [hx], ?_, ?_⟩
  · rwa [List.append_assoc, List.head?_append_of_ne_nil _ hx]
  · rwa [List.getLast?_append_of_ne_nil _ hy]

/-- A text in front of which underscores stand is found again. -/
theorem front_inj {front front' : List Char} (hx : Trimmed x) (hy : Trimmed y)
    (hf : ∀ c ∈ front, c = '_') (hf' : ∀ c ∈ front', c = '_')
    (h : front ++ (x ++ z) = front' ++ (y ++ z')) : x ++ z = y ++ z' := by
  have mark {u v : List Char} (hu : Trimmed u) : ∀ c ∈ (u ++ v).head?, c ≠ '_' := by
    rintro c hc rfl
    rw [List.head?_append_of_ne_nil _ hu.1] at hc
    exact hu.2.1 hc
  exact (append_inj_of_marks (P := (· ≠ '_')) (by simpa using hf) (by simpa using hf') (mark hx)
    (mark hy) h).2

theorem padded_self (x : List Char) : Padded x x := ⟨[], [], by simp, by simp, by simp⟩

theorem padded_front (x : List Char) : Padded x ('_' :: x) := ⟨['_'], [], by simp, by simp, by simp⟩

theorem padded_back (x : List Char) : Padded x (x ++ ['_']) := ⟨[], ['_'], by simp, by simp, by simp⟩

theorem Padded.inj (hx : Trimmed x) (hy : Trimmed y) (hxz : Padded x z) (hyz : Padded y z) : x = y := by
  obtain ⟨front, back, hf, hb, rfl⟩ := hxz
  obtain ⟨front', back', hf', hb', h⟩ := hyz
  rw [List.append_assoc, List.append_assoc] at h
  have hback : x ++ back = y ++ back' := front_inj hx hy hf hf' h
  have hrev : back.reverse ++ (x.reverse ++ []) = back'.reverse ++ (y.reverse ++ []) := by
    simpa using congrArg List.reverse hback
  simpa using front_inj hx.reverse hy.reverse (by simpa using hb) (by simpa using hb') hrev

/-! ### Casings -/

theorem trimmed_intercalate {ws : List (List Char)} (hne : ws ≠ [])
    (h : ∀ w ∈ ws, w ≠ [] ∧ '_' ∉ w) : Trimmed (['_'].intercalate ws) := by
  induction ws with
  | nil => exact (hne rfl).elim
  | cons w ws ih =>
    obtain ⟨⟨hw, hmark⟩, hws⟩ := List.forall_mem_cons.mp h
    have first := trimmed_of_not_mem hw hmark
    cases ws with
    | nil => simpa using first
    | cons v vs =>
      rw [List.intercalate_cons_cons]
      exact first.append (ih (List.cons_ne_nil v vs) hws) ['_']

theorem trimmed_camel {ws : List (List Char)} (h : Words.IsLowered ws) :
    Trimmed (Words.joinedCamel ws) := by
  refine trimmed_of_not_mem ?_ fun hu => absurd (Words.ascii_joinedCamel h _ hu) (by decide)
  cases ws with
  | nil => exact h.elim
  | cons w ws => simp [Words.joinedCamel, h.1]

/-- A name in snake case is moved away from keywords and digits only by an underscore at an end. -/
theorem Python.padded_ident (hne : Words.snake a.toList ≠ []) :
    Padded (Words.snake a.toList) (Python.ident a).toList := by
  simp only [Python.ident]
  split
  · exact (hne ‹_›).elim
  · split
    · simpa using padded_front _
    · split
      · simpa using padded_back _
      · simpa using padded_self _

namespace Target

/-- How members are cased. -/
def cased : Target → String → String
  | .typescript, s => (Name.ofText s).camel
  | .python, s => (Name.ofText s).snake

def ident : Target → String → String
  | .typescript => TypeScript.ident
  | .python => Python.ident

/-- The member that is made from a name. -/
def member (target : Target) (s : String) : String := target.ident (target.cased s)

theorem cased_eq_iff (target : Target) :
    target.cased a = target.cased b ↔ Name.words a = Name.words b := by
  cases target with
  | typescript => exact Name.camel_eq_iff
  | python => exact Name.snake_eq_iff

theorem trimmed_cased (target : Target) (s : String) : Trimmed (target.cased s).toList := by
  have hwords := Name.isLowered_words s
  cases target with
  | typescript =>
    rw [cased, Name.camel_eq, String.toList_ofList]
    exact trimmed_camel hwords
  | python =>
    rw [cased, Name.snake_eq, String.toList_ofList]
    obtain ⟨hne, hletters⟩ := hwords.letters
    exact trimmed_intercalate hne fun w hw => ⟨(hletters w hw).1, Words.underscore_not_mem (hletters w hw).2⟩

/-- A cased name is moved away from keywords and digits only by an underscore at an end. -/
theorem padded_member (target : Target) (s : String) :
    Padded (target.cased s).toList (target.member s).toList := by
  have hne : (target.cased s).toList ≠ [] := (target.trimmed_cased s).1
  cases target with
  | typescript =>
    rw [member, ident, TypeScript.ident]
    split
    · rename_i he
      exact (hne he).elim
    · split
      · simpa using padded_back _
      · split
        · simpa using padded_front _
        · exact padded_self _
  | python =>
    have hsnake : Words.snake (cased .python s).toList = (cased .python s).toList := by
      rw [cased, Name.snake_eq, String.toList_ofList, Words.snake_snake (Name.isLowered_words s)]
    have hpadded := Python.padded_ident (a := cased .python s) (by rwa [hsnake])
    rw [hsnake] at hpadded
    rwa [member, ident]

theorem member_eq_iff : target.member a = target.member b ↔ Name.words a = Name.words b := by
  rw [← target.cased_eq_iff]
  constructor
  · intro h
    have hb := target.padded_member b
    rw [← h] at hb
    exact String.toList_inj.mp ((target.padded_member a).inj (target.trimmed_cased a)
      (target.trimmed_cased b) hb)
  · intro h
    rw [member, h, member]

/-! ### Members that every class has -/

/-- What a client has beside the methods of operations. -/
def clientMembers : Target → List String
  | .typescript => ["constructor", "transport", "setToken"]
  | .python => ["__init__", "_transport", "set_token"]

/-- What the class of a service has beside these. -/
def serviceMembers : Target → List String
  | .typescript => ["constructor", "transport"]
  | .python => ["__init__", "_transport"]

/-- A member is met as it stands, or not at all, if this holds without the underscores at its ends. -/
theorem member_eq_iff_of_padded {f core : String} (hcore : Trimmed core.toList)
    (hf : Padded core.toList f.toList)
    (h : target.ident core = f ↔ core = f) : target.member a = f ↔ target.cased a = f := by
  have cased_eq_core (hp : Padded (target.cased a).toList f.toList) : target.cased a = core :=
    String.toList_inj.mp (hp.inj (target.trimmed_cased a) hcore hf)
  constructor
  · intro he
    have hc := cased_eq_core (he ▸ target.padded_member a)
    rw [member, hc] at he
    rw [hc, h.mp he]
  · intro he
    have hc := cased_eq_core (he ▸ ⟨[], [], by simp, by simp, by simp⟩)
    rw [member, hc, h.mpr (hc.symm.trans he)]

/-- A member that is there anyway is met as it stands, or not at all. -/
theorem member_eq_fixed_iff : ∀ f ∈ target.clientMembers,
    (target.member a = f ↔ target.cased a = f) := by
  cases target with
  | typescript =>
    have bare (f : String) (hf : Trimmed f.toList) (hi : TypeScript.ident f = f) :
        member .typescript a = f ↔ cased .typescript a = f :=
      member_eq_iff_of_padded hf ⟨[], [], by simp, by simp, by simp⟩ (iff_of_true hi rfl)
    simp only [clientMembers, List.forall_mem_cons]
    refine ⟨bare _ ?_ ?_, bare _ ?_ ?_, bare _ ?_ ?_, by simp⟩
    all_goals decide +kernel
  | python =>
    have init : Padded "init".toList "__init__".toList :=
      ⟨['_', '_'], ['_', '_'], by simp, by simp, rfl⟩
    have transport : Padded "transport".toList "_transport".toList :=
      ⟨['_'], [], by simp, by simp, rfl⟩
    have setToken : Padded "set_token".toList "set_token".toList := ⟨[], [], by simp, by simp, rfl⟩
    simp only [clientMembers, List.forall_mem_cons]
    refine ⟨member_eq_iff_of_padded ?_ init (iff_of_false ?_ ?_),
      member_eq_iff_of_padded ?_ transport (iff_of_false ?_ ?_),
      member_eq_iff_of_padded ?_ setToken (iff_of_true ?_ rfl), by simp⟩
    all_goals decide +kernel

/-- Members are made twice exactly from names of the same words, or from one that is cased like a
member that is there anyway. -/
theorem nodup_members_iff (hfixed : fixed ⊆ target.clientMembers) (hnodup : fixed.Nodup) :
    (fixed ++ names.map target.member).Nodup ↔
      (names.map Name.words).Nodup ∧ ∀ a ∈ names, target.cased a ∉ fixed := by
  have distinct : (names.map target.member).Nodup ↔ (names.map Name.words).Nodup := by
    simp only [List.Nodup, List.pairwise_map, ne_eq, member_eq_iff]
  have apart : (∀ f ∈ fixed, ∀ b ∈ names.map target.member, f ≠ b) ↔
      ∀ a ∈ names, target.cased a ∉ fixed := by
    simp only [List.forall_mem_map]
    constructor
    · intro h a ha hmem
      exact h _ hmem a ha ((member_eq_fixed_iff _ (hfixed hmem)).mpr rfl).symm
    · rintro h f hf a ha rfl
      exact h a ha (((member_eq_fixed_iff _ (hfixed hf)).mp rfl) ▸ hf)
  rw [List.nodup_append, distinct, apart, and_iff_right hnodup]

end Target
end ClientGen
