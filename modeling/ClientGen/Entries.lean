/-! Ordered maps: pairs in order of first insertion, a later value replacing an earlier one in place. -/
namespace ClientGen

abbrev Entries (κ α : Type) := List (κ × α)

namespace Entries
variable {κ α : Type} [DecidableEq κ]

def get? : Entries κ α → κ → Option α
  | [], _ => none
  | (k', v) :: rest, k => if k' = k then some v else get? rest k

/-- Keeps the place of a key that is present; a new key goes to the end. -/
def put : Entries κ α → κ → α → Entries κ α
  | [], k, v => [(k, v)]
  | (k', v') :: rest, k, v => if k' = k then (k, v) :: rest else (k', v') :: put rest k v

def has (es : Entries κ α) (k : κ) : Bool := (get? es k).isSome

def keys (es : Entries κ α) : List κ := es.map Prod.fst

def values (es : Entries κ α) : List α := es.map Prod.snd

def ofList (pairs : List (κ × α)) : Entries κ α :=
  pairs.foldl (fun es p => put es p.1 p.2) []

end Entries

/-- Appends what is not yet there. -/
def addNew {α : Type} [DecidableEq α] (xs : List α) (x : α) : List α :=
  if x ∈ xs then xs else xs ++ [x]

end ClientGen
