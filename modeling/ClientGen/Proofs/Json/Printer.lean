import Mathlib.Data.List.DropRight
import ClientGen.Json.Printer
import ClientGen.Proofs.Json.Literal

/-! Printed values, read back. A new line is blank to the reader, so a value is found again in its text
wherever the text stands and whatever follows it. -/
namespace ClientGen
variable {v : Value} {vs : List Value} {key : String} {members : List (String × Value)}
  {n depth k : Nat} {s t after rest : List Char} {tree : Json.Tree} {trees : List Json.Tree}
  {found : List (Option String × Json.Tree)}

/-- What holds of a list or object when it holds of everything within holds of every value. -/
@[elab_as_elim]
theorem Value.induct {P : Value → Prop} (null : P .null) (text : ∀ s, P (.text s))
    (list : ∀ items, (∀ v ∈ items, P v) → P (.list items))
    (object : ∀ members, (∀ m ∈ members, P m.2) → P (.object members)) (v : Value) : P v :=
  @Value.rec P (fun items => ∀ v ∈ items, P v) (fun members => ∀ m ∈ members, P m.2) (fun m => P m.2)
    null text list object (by simp) (by simp_all) (by simp) (by simp_all) (fun _ _ h => h) v

mutual
/-- What a reader makes of a value. -/
def Value.tree : Value → Json.Tree
  | .null => .null
  | .text s => .text (some s)
  | .list items => .list (treesOf items)
  | .object members => .object (memberTreesOf members)

def treesOf : List Value → List Json.Tree
  | [] => []
  | v :: vs => v.tree :: treesOf vs

def memberTreesOf : List (String × Value) → List (Option String × Json.Tree)
  | [] => []
  | (key, v) :: rest => (some key, v.tree) :: memberTreesOf rest
end

namespace Json

theorem skipSpace_newline (k : Nat) (s : List Char) : skipSpace (newline k ++ s) = skipSpace s :=
  List.dropWhile_append_of_pos fun c hc => by
    rcases List.mem_cons.mp hc with rfl | hc
    · rfl
    · rw [List.eq_of_mem_replicate hc]
      rfl

theorem skipSpace_cons {c : Char} (h : isSpace c = false) : skipSpace (c :: s) = c :: s :=
  List.dropWhile_cons_of_neg (by simp [h])

theorem skipSpace_skipSpace (s : List Char) : skipSpace (skipSpace s) = skipSpace s :=
  List.dropWhile_idempotent isSpace s

/-- Blanks before a value do not count. -/
theorem readValue?_congr (h : skipSpace s = skipSpace t) : readValue? n s = readValue? n t := by
  cases n with
  | zero => rfl
  | succ n => rw [readValue?, h, readValue?]

theorem readValue?_space : readValue? n (' ' :: s) = readValue? n s := readValue?_congr rfl

theorem readItems?_congr (h : skipSpace s = skipSpace t) : readItems? n s = readItems? n t := by
  cases n with
  | zero => rfl
  | succ n => rw [readItems?, readValue?_congr h, readItems?]

theorem readMembers?_congr (h : skipSpace s = skipSpace t) : readMembers? n s = readMembers? n t := by
  cases n with
  | zero => rfl
  | succ n => rw [readMembers?, h, readMembers?]

theorem readString?_encode (h : key.toList.length < n) :
    readString? n (key.toList.flatMap Quoted.escape ++ '"' :: rest) = some (some key, rest) := by
  rw [readString?, readText?_escapes h]
  simp

theorem readItems?_last (hv : readValue? n s = some (tree, after))
    (h : skipSpace after = ']' :: rest) : readItems? (n + 1) s = some ([tree], rest) := by
  simp [readItems?, hv, h]

theorem readItems?_next (hv : readValue? n s = some (tree, after)) (h : skipSpace after = ',' :: t)
    (ht : readItems? n t = some (trees, rest)) :
    readItems? (n + 1) s = some (tree :: trees, rest) := by
  simp [readItems?, hv, h, ht]

theorem readMembers?_last (hkey : key.toList.length < n) (hv : readValue? n s = some (tree, after))
    (h : skipSpace after = '\x7d' :: rest) :
    readMembers? (n + 1) (Quoted.encode key.toList ++ ':' :: ' ' :: s) =
      some ([(some key, tree)], rest) := by
  simp [readMembers?, Quoted.encode, skipSpace_cons, isSpace, readString?_encode hkey,
    readValue?_space, hv, h]

theorem readMembers?_next (hkey : key.toList.length < n) (hv : readValue? n s = some (tree, after))
    (h : skipSpace after = ',' :: t) (ht : readMembers? n t = some (found, rest)) :
    readMembers? (n + 1) (Quoted.encode key.toList ++ ':' :: ' ' :: s) =
      some ((some key, tree) :: found, rest) := by
  simp [readMembers?, Quoted.encode, skipSpace_cons, isSpace, readString?_encode hkey,
    readValue?_space, hv, h, ht]

theorem readValue?_list (hs : (skipSpace s).head? ≠ some ']')
    (h : readItems? n s = some (trees, rest)) :
    readValue? (n + 1) ('[' :: s) = some (.list trees, rest) := by
  rw [← readItems?_congr (skipSpace_skipSpace s)] at h
  simp only [readValue?, skipSpace_cons (c := '[') rfl]
  split
  · simp_all
  · exact congrArg (Option.map _) h

theorem readValue?_object (hs : (skipSpace s).head? ≠ some '\x7d')
    (h : readMembers? n s = some (found, rest)) :
    readValue? (n + 1) ('\x7b' :: s) = some (.object found, rest) := by
  rw [← readMembers?_congr (skipSpace_skipSpace s)] at h
  simp only [readValue?, skipSpace_cons (c := '\x7b') rfl]
  split
  · simp_all
  · exact congrArg (Option.map _) h

/-- No value begins with a bracket that closes. -/
theorem head?_print_ne (depth : Nat) (v : Value) (s : List Char) :
    (skipSpace (print depth v ++ s)).head? ≠ some ']' := by
  cases v with
  | null => simp [print, skipSpace, isSpace]
  | text s => simp [print, Quoted.encode, skipSpace, isSpace]
  | list items => cases items <;> simp [print, skipSpace, isSpace]
  | object members => cases members <;> simp [print, skipSpace, isSpace]

/-- With a step for each character and one more, the value is found and what follows it is left. -/
def ReadsBack (v : Value) : Prop :=
  ∀ {depth n : Nat} {rest : List Char}, (print depth v).length ≤ n →
    readValue? (n + 1) (print depth v ++ rest) = some (v.tree, rest)

theorem readItems?_print (hv : ReadsBack v) (hvs : ∀ w ∈ vs, ReadsBack w)
    (hn : (print depth v ++ printItems depth vs).length ≤ n) :
    readItems? (n + 2) (print depth v ++ printItems depth vs ++ newline k ++ ']' :: rest) =
      some (treesOf (v :: vs), rest) := by
  induction vs generalizing v n with
  | nil =>
    simp only [printItems, List.append_nil, List.append_assoc] at hn ⊢
    exact readItems?_last (hv hn) (skipSpace_newline k _)
  | cons w vs ih =>
    obtain ⟨hw, hvs⟩ := List.forall_mem_cons.mp hvs
    simp only [printItems, List.append_assoc, List.cons_append, List.length_append,
      List.length_cons] at hn ih ⊢
    obtain ⟨n, rfl⟩ : ∃ m, n = m + 1 := ⟨n - 1, by omega⟩
    refine readItems?_next (hv (by omega)) rfl ?_
    rw [readItems?_congr (skipSpace_newline depth _)]
    exact ih hw hvs (by omega)

theorem readMembers?_print (hv : ReadsBack v) (hms : ∀ m ∈ members, ReadsBack m.2)
    (hn : (Quoted.encode key.toList ++ [':', ' '] ++ print depth v ++
      printMembers depth members).length ≤ n) :
    readMembers? (n + 2) (Quoted.encode key.toList ++ [':', ' '] ++ print depth v ++
      printMembers depth members ++ newline k ++ '\x7d' :: rest) =
      some (memberTreesOf ((key, v) :: members), rest) := by
  have hkey := length_lt_encode key.toList
  induction members generalizing key v n with
  | nil =>
    simp only [printMembers, List.append_nil, List.append_assoc, List.cons_append, List.nil_append,
      List.length_append, List.length_cons] at hn ⊢
    exact readMembers?_last (by omega) (hv (by omega)) (skipSpace_newline k _)
  | cons m members ih =>
    obtain ⟨key', w⟩ := m
    obtain ⟨hw : ReadsBack w, hms⟩ := List.forall_mem_cons.mp hms
    simp only [printMembers, List.append_assoc, List.cons_append, List.nil_append,
      List.length_append, List.length_cons] at hn ih ⊢
    obtain ⟨n, rfl⟩ : ∃ m, n = m + 1 := ⟨n - 1, by omega⟩
    refine readMembers?_next (by omega) (hv (by omega)) rfl ?_
    rw [readMembers?_congr (skipSpace_newline depth _)]
    exact ih hw hms (by omega) (length_lt_encode key'.toList)

/-- A value is read back from its text, wherever the text stands. -/
theorem readsBack (v : Value) : ReadsBack v := by
  intro depth n rest hn
  induction v using Value.induct generalizing depth n rest with
  | null => rfl
  | text s =>
    rw [print] at hn ⊢
    have hs : s.toList.length < n := by
      have := length_lt_encode s.toList
      omega
    simp [readValue?, Quoted.encode, skipSpace_cons, isSpace, readString?_encode hs, Value.tree]
  | list items ih =>
    cases items with
    | nil => rfl
    | cons v vs =>
      obtain ⟨hv, hvs⟩ := List.forall_mem_cons.mp ih
      -- The bracket and the new line after it leave the two steps that it takes to begin the items.
      simp only [print, List.cons_append, List.append_assoc, List.length_cons,
        List.length_append] at hn ⊢
      obtain ⟨n, rfl⟩ : ∃ m, n = m + 2 := ⟨n - 2, by omega⟩
      refine readValue?_list ?_ ?_
      · rw [skipSpace_newline]
        exact head?_print_ne (depth + 1) v _
      · rw [readItems?_congr (skipSpace_newline _ _)]
        simpa using readItems?_print hv hvs (by simp only [List.length_append]; omega)
  | object members ih =>
    cases members with
    | nil => rfl
    | cons m members =>
      obtain ⟨key, v⟩ := m
      obtain ⟨hv, hms⟩ := List.forall_mem_cons.mp ih
      simp only [print, List.cons_append, List.append_assoc, List.length_cons,
        List.length_append] at hn ⊢
      obtain ⟨n, rfl⟩ : ∃ m, n = m + 2 := ⟨n - 2, by omega⟩
      refine readValue?_object ?_ ?_
      · rw [skipSpace_newline]
        simp [Quoted.encode, skipSpace, isSpace]
      · rw [readMembers?_congr (skipSpace_newline _ _)]
        simpa using readMembers?_print hv hms
          (by simp only [List.length_append, List.length_cons]; omega)

/-- The text of a value holds that value and nothing else. -/
theorem ofText?_toJson (v : Value) : Tree.ofText? (v.toJson ++ "\n") = some v.tree := by
  have hread : readValue? (2 * (print 0 v ++ ['\n']).length + 2) (print 0 v ++ ['\n']) =
      some (v.tree, ['\n']) :=
    readsBack v (by simp only [List.length_append]; omega)
  have htext : (v.toJson ++ "\n").toList = print 0 v ++ ['\n'] := by simp [Value.toJson]
  rw [Tree.ofText?, htext]
  simp only [hread, Option.bind_eq_bind, Option.bind_some]
  rfl

end Json
end ClientGen
