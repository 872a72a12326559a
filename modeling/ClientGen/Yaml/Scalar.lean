import ClientGen.Text.Decimal
import ClientGen.Text.Replace

/-! What plain scalars stand for. -/
namespace ClientGen.Yaml

inductive Meaning
  | null
  | flag (b : Bool)
  /-- A whole number that is not negative, below two to the 64. -/
  | whole (n : Nat)
  /-- A whole number written with a minus. -/
  | negative
  /-- A whole number that needs more than 64 bits, though no more than 128. -/
  | tooLarge
  | decimal (finite : Bool)
  | text
deriving DecidableEq, Repr

namespace Meaning

def digit? (radix : Nat) (c : Char) : Option Nat :=
  let n :=
    if c.isDigit then c.toNat - '0'.toNat
    else if 'a' ≤ c ∧ c ≤ 'z' then c.toNat - 'a'.toNat + 10
    else if 'A' ≤ c ∧ c ≤ 'Z' then c.toNat - 'A'.toNat + 10
    else radix
  if n < radix then some n else none

/-- The number that one digit or more write. -/
def number? (radix : Nat) (digits : List Char) : Option Nat :=
  if digits.isEmpty then none
  else digits.foldlM (fun n c => (digit? radix c).map (radix * n + ·)) 0

/-- The radix that a text begins with, and what follows. -/
def radix? : List Char → Option (Nat × List Char)
  | '0' :: 'x' :: s => some (16, s)
  | '0' :: 'o' :: s => some (8, s)
  | '0' :: 'b' :: s => some (2, s)
  | _ => none

def withoutPlus : List Char → List Char
  | '+' :: s => s
  | s => s

def withoutSign : List Char → List Char
  | '+' :: s => s
  | '-' :: s => s
  | s => s

/-- Digits after a leading zero do not make a number. -/
def isPadded (s : List Char) : Bool :=
  match withoutSign s with
  | '0' :: c :: rest => (c :: rest).all Char.isDigit
  | _ => false

/-- The number without a minus that `s` writes, with a radix or in decimal. -/
def unsigned? (s : List Char) : Option Nat :=
  let digits := withoutPlus s
  match radix? digits with
  | some (radix, digits) => number? radix digits
  | none => if isPadded s then none else number? 10 digits

/-- The number that `s` writes after a minus. -/
def negated? (s : List Char) : Option Nat :=
  match s with
  | '-' :: digits =>
    match radix? digits with
    | some (radix, digits) => number? radix digits
    | none => if isPadded s then none else number? 10 digits
  | _ => none

/-- A whole number that a reader of 128 bits takes. -/
def integer? (s : List Char) : Option Meaning :=
  match unsigned? s with
  | some n => if n < Nat.pow 2 64 then some (.whole n) else if n < Nat.pow 2 128 then some .tooLarge else none
  | none =>
    match negated? s with
    | some n =>
      if n ≤ Nat.pow 2 63 then some .negative else if n ≤ Nat.pow 2 127 then some .tooLarge else none
    | none => none

/-- The power of ten of a decimal number, or zero. -/
def exponent? : List Char → Option Int
  | [] => some 0
  | c :: s =>
    if c = 'e' ∨ c = 'E' then
      match s with
      | '-' :: s => (number? 10 s).map fun n => -(n : Int)
      | s => (number? 10 (withoutPlus s)).map fun n => (n : Int)
    else none

/-- Digits with at most one point among them, and an exponent: whether the number is finite. -/
def isFinite? (s : List Char) : Option Bool :=
  let (front, s) := s.span Char.isDigit
  let (fraction, s) := match s with
    | '.' :: s => s.span Char.isDigit
    | s => ([], s)
  if front.isEmpty && fraction.isEmpty then none
  else (exponent? s).map fun e => Decimal.isFinite (front ++ fraction) (e - fraction.length)

/-- A decimal number that is finite, or one of the words for infinity and the undefined. -/
def float? (s : List Char) : Option Meaning :=
  let unsigned := withoutSign s
  if String.ofList unsigned ∈ [".inf", ".Inf", ".INF"]
    || String.ofList s ∈ [".nan", ".NaN", ".NAN"] then some (.decimal false)
  else if isFinite? unsigned = some true then some (.decimal true)
  else none

def isNull (s : String) : Bool := s ∈ ["null", "Null", "NULL", "~"]

def flag? (s : String) : Option Bool :=
  if s ∈ ["true", "True", "TRUE"] then some true
  else if s ∈ ["false", "False", "FALSE"] then some false
  else none

/-- Null, a truth value, a whole number, a decimal one; whatever is none of these is text. -/
def ofPlain (s : String) : Meaning :=
  if s.isEmpty || isNull s then .null
  else match flag? s with
    | some b => .flag b
    | none =>
      match integer? s.toList with
      | some m => m
      | none =>
        if isPadded s.toList then .text else (float? s.toList).getD .text

end Meaning
end ClientGen.Yaml
