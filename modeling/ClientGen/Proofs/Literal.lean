import ClientGen.Json.Reader
import ClientGen.Proofs.Documentation
import ClientGen.Proofs.Marks

/-! String literals in double quotes, as two languages read them. Each has escapes of its own, and strings made
of units of its own, but what is escaped when a literal is written means the same to both. -/
namespace ClientGen
open Quoted (encode escape hexDigit)
open Python (IsEscaped isEscaped_of_not_mem)
variable {c d : Char} {s t l rest : List Char}

/-! ### What is written -/

/-- The escapes of one letter, and what they stand for. -/
def shortEscapes : List (Char × Char) :=
  [('"', '"'), ('\\', '\\'), ('b', '\x08'), ('f', '\x0c'), ('n', '\n'), ('r', '\r'), ('t', '\t')]

/-- What stands behind the backslash where a character is written by its number. -/
def numberEscape (c : Char) : List Char := ['u', '0', '0', hexDigit (c.toNat / 16), hexDigit (c.toNat % 16)]

theorem escape_cases (c : Char) :
    (∃ e, (e, c) ∈ shortEscapes ∧ escape c = ['\\', e]) ∨
    (c.toNat < 0x20 ∧ escape c = '\\' :: numberEscape c) ∨
    (c ≠ '"' ∧ c ≠ '\\' ∧ ¬c.toNat < 0x20 ∧ escape c = [c]) := by
  fun_cases escape c with
  | case8 => exact .inr (.inl ⟨‹_›, rfl⟩)
  | case9 => exact .inr (.inr ⟨‹_›, ‹_›, ‹_›, rfl⟩)
  | _ =>
    subst_vars
    exact .inl ⟨_, by decide, rfl⟩

theorem hexDigit_spec {n : Nat} (hn : n < 16) : Json.hexDigit? (hexDigit n) = some n ∧
    hexDigit n ≠ '"' ∧ hexDigit n ≠ '\\' ∧ 0x20 ≤ (hexDigit n).toNat ∧ (hexDigit n).toNat < 0x7f := by
  have all : ∀ n < 16, Json.hexDigit? (hexDigit n) = some n ∧
      hexDigit n ≠ '"' ∧ hexDigit n ≠ '\\' ∧ 0x20 ≤ (hexDigit n).toNat ∧ (hexDigit n).toNat < 0x7f := by decide
  exact all n hn

/-- Every quote is escaped, and what follows is not. -/
theorem isEscaped_escape (c : Char) : IsEscaped (escape c) := by
  rcases escape_cases c with ⟨e, he, hc⟩ | ⟨hlt, hc⟩ | ⟨hquote, hslash, -, hc⟩
  · have all : ∀ e ∈ shortEscapes, ['\\', e.1] = ['\\', '"'] ∨
        '"' ∉ ['\\', e.1] ∧ ¬Odd (Python.backslashes ['\\', e.1]) := by decide
    rw [hc]
    rcases all _ he with hquote | ⟨hquote, hodd⟩
    · rw [hquote]
      exact Python.isEscaped_escapeDoc '"'
    · exact isEscaped_of_not_mem hquote hodd
  · obtain ⟨-, hfirst, -⟩ := hexDigit_spec (n := c.toNat / 16) (by omega)
    obtain ⟨-, hlast, hslash, -⟩ := hexDigit_spec (n := c.toNat % 16) (by omega)
    rw [hc]
    refine isEscaped_of_not_mem ?_ ?_
    · simp [numberEscape, hfirst.symm, hlast.symm]
    · simp [numberEscape, Python.backslashes, hslash]
  · rw [hc]
    exact isEscaped_of_not_mem (by simpa using hquote.symm) (by simp [Python.backslashes, hslash])

theorem isEscaped_flatMap (s : List Char) : IsEscaped (s.flatMap escape) := by
  induction s with
  | nil => exact isEscaped_of_not_mem (by decide) (by decide)
  | cons c s ih => exact (isEscaped_escape c).append ih

/-- A control character of ASCII, such as the end of a line, is not shown; beyond ASCII only what is in the text
itself is. -/
def IsShown (s : List Char) (d : Char) : Prop := 0x20 ≤ d.toNat ∧ (d.toNat < 0x7f ∨ d ∈ s)

theorem isShown_of_mem_escape (hd : d ∈ escape c) : IsShown [c] d := by
  rcases escape_cases c with ⟨e, he, hc⟩ | ⟨hlt, hc⟩ | ⟨-, -, hlt, hc⟩
  · have all : ∀ e ∈ shortEscapes, ['\\', e.1].Forall fun d => 0x20 ≤ d.toNat ∧ d.toNat < 0x7f := by decide
    obtain ⟨hle, hlt⟩ := List.forall_iff_forall_mem.mp (all _ he) d (hc ▸ hd)
    exact ⟨hle, .inl hlt⟩
  · obtain ⟨-, -, -, hfirst⟩ := hexDigit_spec (n := c.toNat / 16) (by omega)
    obtain ⟨-, -, -, hlast⟩ := hexDigit_spec (n := c.toNat % 16) (by omega)
    have hfront : ∀ d ∈ ['\\', 'u', '0', '0'], 0x20 ≤ d.toNat ∧ d.toNat < 0x7f :=
      List.forall_iff_forall_mem.mp (by decide)
    have hmem : d ∈ ['\\', 'u', '0', '0'] ∨ d = hexDigit (c.toNat / 16) ∨ d = hexDigit (c.toNat % 16) := by
      simpa [hc, numberEscape, or_assoc] using hd
    rcases hmem with hmem | rfl | rfl
    · exact ⟨(hfront d hmem).1, .inl (hfront d hmem).2⟩
    · exact ⟨hfirst.1, .inl hfirst.2⟩
    · exact ⟨hlast.1, .inl hlast.2⟩
  · obtain rfl : d = c := by simpa [hc] using hd
    exact ⟨Nat.le_of_not_lt hlt, .inr List.mem_cons_self⟩

theorem isShown_of_mem_encode (hd : d ∈ encode s) : IsShown s d := by
  have hquote : IsShown s '"' := ⟨by decide, .inl (by decide)⟩
  rcases List.mem_cons.mp hd with rfl | hd
  · exact hquote
  · rcases List.mem_append.mp hd with hd | hd
    · obtain ⟨c, hc, hd⟩ := List.mem_flatMap.mp hd
      obtain ⟨hle, hown⟩ := isShown_of_mem_escape hd
      refine ⟨hle, hown.imp_right fun hown => ?_⟩
      rwa [List.mem_singleton.mp hown]
    · rwa [List.mem_singleton.mp hd]

/-! ### What is read -/

/-- The rules of a language for string literals in double quotes. Its strings are lists of numbers. -/
structure LiteralRules where
  /-- What a character is in a string. -/
  units : Char → List Nat
  /-- The characters that may not stand in a literal as they are. -/
  barred : List Char
  /-- What an escape stands for, and how long it is, from what follows its backslash. -/
  escape? : List Char → Option (List Nat × Nat)

namespace LiteralRules
variable {g : LiteralRules}

/-- A text as a string of the language. -/
def text (g : LiteralRules) (s : List Char) : List Nat := s.flatMap g.units

/-- Reads up to the closing quote; `skip` counts what is left of an escape that is already read. -/
def readFrom? (g : LiteralRules) : Nat → List Char → Option (List Nat × List Char)
  | _, [] => none
  | skip + 1, _ :: s => g.readFrom? skip s
  | 0, c :: s =>
    if c = '"' then some ([], s)
    else if c = '\\' then
      (g.escape? s).bind fun (units, length) => (g.readFrom? length s).map (Prod.map (units ++ ·) id)
    else if c ∈ g.barred then none
    else (g.readFrom? 0 s).map (Prod.map (g.units c ++ ·) id)

/-- The string that a literal stands for, and what follows the literal. -/
def read? (g : LiteralRules) : List Char → Option (List Nat × List Char)
  | '"' :: s => g.readFrom? 0 s
  | _ => none

/-- The language reads the escapes that are written as what they are written for, and needs no others. -/
structure Undoes (g : LiteralRules) : Prop where
  short : ∀ e ∈ shortEscapes, ∀ s, g.escape? (e.1 :: s) = some (g.units e.2, 1)
  number : ∀ c : Char, c.toNat < 0x20 →
    ∀ s, g.escape? (numberEscape c ++ s) = some (g.units c, (numberEscape c).length)
  control : ∀ c ∈ g.barred, c.toNat < 0x20

theorem readFrom?_skip (l s : List Char) : g.readFrom? l.length (l ++ s) = g.readFrom? 0 s := by
  induction l with
  | nil => rfl
  | cons c l ih => exact ih

theorem readFrom?_backslash {units : List Nat} (h : g.escape? (l ++ s) = some (units, l.length)) :
    g.readFrom? 0 ('\\' :: (l ++ s)) = (g.readFrom? 0 s).map (Prod.map (units ++ ·) id) := by
  rw [readFrom?, if_neg (by decide), if_pos rfl, h, Option.bind_some]
  dsimp only
  rw [readFrom?_skip]

/-- One character is read back from what is written for it. -/
theorem readFrom?_escape (h : g.Undoes) (c : Char) (s : List Char) :
    g.readFrom? 0 (escape c ++ s) = (g.readFrom? 0 s).map (Prod.map (g.units c ++ ·) id) := by
  rcases escape_cases c with ⟨e, he, hc⟩ | ⟨hlt, hc⟩ | ⟨hquote, hslash, hlt, hc⟩
  · rw [hc]
    exact readFrom?_backslash (l := [e]) (h.short _ he s)
  · rw [hc]
    exact readFrom?_backslash (h.number c hlt s)
  · rw [hc, List.singleton_append, readFrom?, if_neg hquote, if_neg hslash, if_neg (mt (h.control c) hlt)]

/-- A literal is read up to its own closing quote, whatever follows it. -/
theorem read?_encode (h : g.Undoes) (s rest : List Char) :
    g.read? (encode s ++ rest) = some (g.text s, rest) := by
  have hescapes : g.readFrom? 0 (s.flatMap escape ++ '"' :: rest) = some (g.text s, rest) := by
    induction s with
    | nil => rfl
    | cons c s ih =>
      rw [List.flatMap_cons, List.append_assoc, readFrom?_escape h, ih]
      rfl
  simpa [read?, encode] using hescapes

/-- A literal on one line that stands for a text and ends at its own quote. Any other quote between the first and
the last is behind a backslash that is not escaped itself. -/
structure IsLiteral (g : LiteralRules) (s lit : List Char) : Prop where
  read : ∀ rest, g.read? (lit ++ rest) = some (g.text s, rest)
  line : ∀ d ∈ lit, IsShown s d
  quote : ∃ body, lit = '"' :: (body ++ ['"']) ∧ IsEscaped body

theorem Undoes.isLiteral (h : g.Undoes) (s : String) : g.IsLiteral s.toList (quoted s).toList := by
  rw [quoted, String.toList_ofList]
  exact ⟨read?_encode h s.toList, fun _ => isShown_of_mem_encode, _, rfl, isEscaped_flatMap s.toList⟩

/-- Characters are found again in a string. -/
theorem text_injective (hne : ∀ c, g.units c ≠ [])
    (h : ∀ c d q q', g.units c ++ q = g.units d ++ q' → c = d ∧ q = q') : Function.Injective g.text := by
  intro s t hst
  have starts (c : Char) : ∃ a l, g.units c = a :: l ∧ True := by
    obtain ⟨a, l, hc⟩ := List.exists_cons_of_ne_nil (hne c)
    exact ⟨a, l, hc, trivial⟩
  have hends : s.flatMap g.units ++ [] = t.flatMap g.units ++ [] := congrArg (· ++ []) hst
  have hsame := forall₂_of_flatMap (S := fun _ => True) (P := fun _ => True) (R := Eq) (fun _ h => h)
    (fun c _ => starts c) (fun d _ => starts d) (by simp) (by simp)
    (fun c _ d _ q q' _ _ => h c d q q') hends
  exact List.forall₂_eq_eq_eq ▸ hsame.1

end LiteralRules

/-! ### Escapes -/

/-- The number that hexadecimal digits write, after those of `n`. -/
def hexFrom? : Nat → Nat → List Char → Option Nat
  | 0, n, _ => some n
  | _ + 1, _, [] => none
  | count + 1, n, c :: s => (Json.hexDigit? c).bind fun digit => hexFrom? count (16 * n + digit) s

theorem hexFrom?_numberEscape (hc : c.toNat < 0x20) (s : List Char) :
    hexFrom? 4 0 ((numberEscape c).tail ++ s) = some c.toNat := by
  obtain ⟨hfirst, -⟩ := hexDigit_spec (n := c.toNat / 16) (by omega)
  obtain ⟨hlast, -⟩ := hexDigit_spec (n := c.toNat % 16) (by omega)
  have hzero : Json.hexDigit? '0' = some 0 := by decide
  simp only [numberEscape, List.tail_cons, List.cons_append, hexFrom?, hzero, hfirst, hlast, Option.bind_some,
    Option.some.injEq]
  omega

namespace Python

/-- What a letter stands for behind a backslash. -/
def shortEscape? : Char → Option Char
  | '"' => some '"'
  | '\'' => some '\''
  | '\\' => some '\\'
  | 'a' => some '\x07'
  | 'b' => some '\x08'
  | 'f' => some '\x0c'
  | 'n' => some '\n'
  | 'r' => some '\r'
  | 't' => some '\t'
  | 'v' => some '\x0b'
  | _ => none

/-- Up to three octal digits. -/
def octal (s : List Char) : List Char := (s.take 3).takeWhile fun c => '0' ≤ c && c ≤ '7'

/-- A character by its name in braces, from what follows the letter of the escape. -/
def namedEscape? (names : String → Option Char) : List Char → Option (List Nat × Nat)
  | '\x7b' :: s =>
    let name := s.takeWhile fun c => Letter.isAsciiAlnum c || c == ' ' || c == '-'
    if s[name.length]? = some '\x7d' then
      (names (String.ofList name)).map fun c => ([c.toNat], name.length + 3)
    else none
  | _ => none

/-- A character by its number or name, or by a letter. The end of a line is left out, and what is no escape
stands for itself, with its backslash. -/
def escape? (names : String → Option Char) : List Char → Option (List Nat × Nat)
  | [] => none
  | '\r' :: '\n' :: _ => some ([], 2)
  | 'x' :: s => (hexFrom? 2 0 s).map fun n => ([n], 3)
  | 'u' :: s => (hexFrom? 4 0 s).map fun n => ([n], 5)
  | 'U' :: s => ((hexFrom? 8 0 s).filter (· < 0x110000)).map fun n => ([n], 9)
  | 'N' :: s => namedEscape? names s
  | c :: s =>
    let digits := octal (c :: s)
    if c = '\n' ∨ c = '\r' then some ([], 1)
    else if c = '\x00' then none
    else if digits ≠ [] then some ([digits.foldl (fun n d => 8 * n + (d.toNat - '0'.toNat)) 0], digits.length)
    else match shortEscape? c with
      | some e => some ([e.toNat], 1)
      | none => some (['\\'.toNat, c.toNat], 1)

/-- Strings are made of code points, halves of surrogate pairs among them. A source holds no null character.
The names of characters come from a table of the language. -/
def literalRules (names : String → Option Char) : LiteralRules where
  units c := [c.toNat]
  barred := ['\n', '\r', '\x00']
  escape? := escape? names

theorem undoes_literalRules (names : String → Option Char) : (literalRules names).Undoes where
  short e he s := by
    simp only [shortEscapes, List.mem_cons, List.not_mem_nil, or_false] at he
    rcases he with rfl | rfl | rfl | rfl | rfl | rfl | rfl <;> rfl
  number c hc s := by
    have hread : escape? names (numberEscape c ++ s) =
        (hexFrom? 4 0 ((numberEscape c).tail ++ s)).map fun n => ([n], 5) := rfl
    change escape? names (numberEscape c ++ s) = _
    rw [hread, hexFrom?_numberEscape hc]
    rfl
  control := show ∀ c ∈ ['\n', '\r', '\x00'], c.toNat < 0x20 from
    List.forall_iff_forall_mem.mp (by decide)

theorem text_injective (names : String → Option Char) : Function.Injective (literalRules names).text := by
  refine LiteralRules.text_injective (fun c => List.cons_ne_nil _ _) fun c d q q' h => ?_
  obtain ⟨hc, hq⟩ := List.cons.inj h
  exact ⟨Char.toNat_inj.mp hc, hq⟩

end Python

namespace TypeScript

/-- A code point in units of sixteen bits: itself, or a surrogate pair. -/
def units (n : Nat) : List Nat :=
  if n < 0x10000 then [n] else [0xd800 + (n - 0x10000) / 0x400, 0xdc00 + (n - 0x10000) % 0x400]

/-- What a letter stands for behind a backslash. -/
def shortEscape? : Char → Option Char
  | 'b' => some '\x08'
  | 'f' => some '\x0c'
  | 'n' => some '\n'
  | 'r' => some '\r'
  | 't' => some '\t'
  | 'v' => some '\x0b'
  | _ => none

/-- A character by its number in braces, or a unit by four digits, from what follows the letter of the escape. -/
def numberedEscape? : List Char → Option (List Nat × Nat)
  | '\x7b' :: s =>
    let digits := s.takeWhile fun c => (Json.hexDigit? c).isSome
    if digits ≠ [] ∧ s[digits.length]? = some '\x7d' then
      ((hexFrom? digits.length 0 s).filter (· < 0x110000)).map fun n => (units n, digits.length + 3)
    else none
  | s => (hexFrom? 4 0 s).map fun n => ([n], 5)

/-- A character by its number, or by a letter. The end of a line is left out, and what is no escape stands for
itself, without its backslash; but digits are no escapes, except for a zero that is alone. -/
def escape? : List Char → Option (List Nat × Nat)
  | [] => none
  | '\r' :: '\n' :: _ => some ([], 2)
  | 'x' :: s => (hexFrom? 2 0 s).map fun n => ([n], 3)
  | 'u' :: s => numberedEscape? s
  | c :: s =>
    if c = '\n' ∨ c = '\r' ∨ c = '\u2028' ∨ c = '\u2029' then some ([], 1)
    else if c = '0' ∧ !s.head?.any Char.isDigit then some ([0], 1)
    else if c.isDigit then none
    else some (units ((shortEscape? c).getD c).toNat, 1)

/-- Strings are made of units of sixteen bits. The separators U+2028 and U+2029 may stand in a literal, as they
do not end a line there. -/
def literalRules : LiteralRules where
  units c := units c.toNat
  barred := ['\n', '\r']
  escape? := escape?

theorem undoes_literalRules : literalRules.Undoes where
  short e he s := by
    simp only [shortEscapes, List.mem_cons, List.not_mem_nil, or_false] at he
    rcases he with rfl | rfl | rfl | rfl | rfl | rfl | rfl <;> rfl
  number c hc s := by
    have hread : escape? (numberEscape c ++ s) =
        (hexFrom? 4 0 ((numberEscape c).tail ++ s)).map fun n => ([n], 5) := rfl
    have hunits : units c.toNat = [c.toNat] := if_pos (by omega)
    change escape? (numberEscape c ++ s) = some (units c.toNat, _)
    rw [hread, hexFrom?_numberEscape hc, hunits]
    rfl
  control := List.forall_iff_forall_mem.mp (by decide)

/-- No character is half of a surrogate pair, so units show where characters end. -/
theorem units_append_inj {q q' : List Nat} (h : units c.toNat ++ q = units d.toNat ++ q') : c = d ∧ q = q' := by
  have hc : c.toNat < 0xd800 ∨ 0xdfff < c.toNat ∧ c.toNat < 0x110000 := c.valid
  have hd : d.toNat < 0xd800 ∨ 0xdfff < d.toNat ∧ d.toNat < 0x110000 := d.valid
  rw [units, units] at h
  -- Where only one is a pair, the other would be the first half of it.
  split at h <;> split at h <;> simp only [List.cons_append, List.nil_append, List.cons.injEq] at h
  · exact ⟨Char.toNat_inj.mp h.1, h.2⟩
  · omega
  · omega
  · exact ⟨Char.toNat_inj.mp (by omega), h.2.2⟩

theorem text_injective : Function.Injective literalRules.text := by
  refine LiteralRules.text_injective (fun c => ?_) fun c d q q' => units_append_inj
  change units c.toNat ≠ []
  rw [units]
  split <;> exact List.cons_ne_nil _ _

end TypeScript
end ClientGen
