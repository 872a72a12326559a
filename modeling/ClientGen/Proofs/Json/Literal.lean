import ClientGen.Json.Reader
import ClientGen.Text.Quoted

/-! String literals, read back. Whatever is escaped is unescaped, and a literal ends at its own quote. -/
namespace ClientGen.Json
variable {n : Nat} {c : Char} {s rest : List Char}

/-- A control character is found again under its number. -/
theorem hexUnit?_hexDigit (hn : n < 0x20) :
    hexUnit? '0' '0' (Quoted.hexDigit (n / 16)) (Quoted.hexDigit (n % 16)) = some n := by
  have all : ∀ k < 0x20,
      hexUnit? '0' '0' (Quoted.hexDigit (k / 16)) (Quoted.hexDigit (k % 16)) = some k := by decide
  exact all n hn

theorem readEscape?_control (hc : c.toNat < 0x20) (s : List Char) :
    readEscape? ('u' :: '0' :: '0' :: Quoted.hexDigit (c.toNat / 16) :: Quoted.hexDigit (c.toNat % 16) ::
      s) = some (some c, s) := by
  have hlow : isLowHalf c.toNat = false := by
    rw [isLowHalf, Bool.and_eq_false_iff]
    left
    simp only [decide_eq_false_iff_not]
    omega
  have hhigh : isHighHalf c.toNat = false := by
    rw [isHighHalf, Bool.and_eq_false_iff]
    left
    simp only [decide_eq_false_iff_not]
    omega
  simp [readEscape?, hexUnit?_hexDigit hc, hlow, hhigh]

theorem readText?_plain (hquote : c ≠ '"') (hslash : c ≠ '\\') (hc : ¬c.toNat < 0x20) :
    readText? (n + 1) (c :: s) = (readText? n s).map (Prod.map (Option.map (c :: ·)) id) := by
  rw [readText?, if_neg hquote, if_neg hslash, if_neg hc]
  cases readText? n s <;> rfl

theorem readText?_backslash (h : readEscape? s = some (some c, rest)) :
    readText? (n + 1) ('\\' :: s) = (readText? n rest).map (Prod.map (Option.map (c :: ·)) id) := by
  rw [readText?, if_neg (by decide), if_pos rfl, h, Option.bind_eq_bind, Option.bind_some]
  dsimp only
  cases readText? n rest with
  | none => rfl
  | some found =>
    obtain ⟨text, rest⟩ := found
    cases text <;> rfl

/-- One character is read back from what is written for it. -/
theorem readText?_escape (n : Nat) (c : Char) (s : List Char) :
    readText? (n + 1) (Quoted.escape c ++ s) =
      (readText? n s).map (Prod.map (Option.map (c :: ·)) id) := by
  fun_cases Quoted.escape c with
  | case8 => exact readText?_backslash (readEscape?_control ‹_› s)
  | case9 hquote hslash _ _ _ _ _ hc => exact readText?_plain hquote hslash hc
  | _ =>
    subst_vars
    exact readText?_backslash rfl

/-- A literal is read back, and what follows it is left. -/
theorem readText?_escapes (h : s.length < n) :
    readText? n (s.flatMap Quoted.escape ++ '"' :: rest) = some (some s, rest) := by
  induction s generalizing n with
  | nil =>
    obtain ⟨n, rfl⟩ := Nat.exists_eq_add_one_of_ne_zero (Nat.ne_zero_of_lt h)
    rfl
  | cons c s ih =>
    obtain ⟨n, rfl⟩ := Nat.exists_eq_add_one_of_ne_zero (Nat.ne_zero_of_lt h)
    rw [List.flatMap_cons, List.append_assoc, readText?_escape, ih (Nat.lt_of_succ_lt_succ h)]
    rfl

/-- A literal is found again in what is written, whatever follows it. -/
theorem encode_append_inj {a b r r' : List Char} (h : Quoted.encode a ++ r = Quoted.encode b ++ r') :
    a = b ∧ r = r' := by
  have hescapes : a.flatMap Quoted.escape ++ '"' :: r = b.flatMap Quoted.escape ++ '"' :: r' := by
    simpa [Quoted.encode] using h
  have read {s : List Char} (rest : List Char) (hs : s.length ≤ max a.length b.length) :
      readText? (max a.length b.length + 1) (s.flatMap Quoted.escape ++ '"' :: rest) =
        some (some s, rest) := readText?_escapes (Nat.lt_succ_of_le hs)
  have hsame := read r' (Nat.le_max_right ..)
  rw [← hescapes, read r (Nat.le_max_left ..)] at hsame
  simpa using hsame

theorem quoted_append_inj {a b : String} {r r' : List Char}
    (h : (quoted a).toList ++ r = (quoted b).toList ++ r') : a = b ∧ r = r' := by
  rw [quoted, quoted, String.toList_ofList, String.toList_ofList] at h
  obtain ⟨hab, hr⟩ := encode_append_inj h
  exact ⟨String.toList_inj.mp hab, hr⟩

theorem quoted_inj {a b : String} : quoted a = quoted b ↔ a = b := by
  refine ⟨fun h => ?_, fun h => h ▸ rfl⟩
  exact (quoted_append_inj (congrArg (·.toList ++ []) h)).1

theorem length_lt_encode (s : List Char) : s.length + 1 < (Quoted.encode s).length := by
  have hs : s.length ≤ (s.flatMap Quoted.escape).length := by
    induction s with
    | nil => exact Nat.le_refl _
    | cons c s ih =>
      have hc : 1 ≤ (Quoted.escape c).length := by fun_cases Quoted.escape c <;> simp
      simp only [List.flatMap_cons, List.length_append, List.length_cons]
      omega
  simp only [Quoted.encode, List.length_cons, List.length_append]
  omega

end ClientGen.Json
