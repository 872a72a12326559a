import ClientGen.Text.Letter

/-! Words of an identifier, and the casings that are written from them. -/
namespace ClientGen.Words
open Letter

/-- What the last letter with a case was, since the word began. -/
inductive Run
  | start
  | lower
  | upper
deriving DecidableEq, Repr

def Run.next (r : Run) (c : Char) : Run :=
  if isLower c then .lower else if isUpper c then .upper else r

/-- Splits letters and digits before a capital that follows lower case, and before the last
capital of several when lower case follows it. `word` holds the current word, reversed. -/
def splitFrom : Run → List Char → List Char → List (List Char)
  | _, _, [] => []
  | _, word, [c] => [(c :: word).reverse]
  | r, word, c :: d :: rest =>
    if r.next c = .lower ∧ isUpper d then
      (c :: word).reverse :: splitFrom .start [] (d :: rest)
    else if r = .upper ∧ isUpper c ∧ isLower d then
      word.reverse :: splitFrom .start [c] (d :: rest)
    else splitFrom (r.next c) (c :: word) (d :: rest)

/-- Characters that are neither letters nor digits only separate words. -/
def ofText (s : List Char) : List (List Char) :=
  (s.splitOnP fun c => !isAlnum c).flatMap (splitFrom .start [])

/-- In lower case; a capital sigma that ends the word takes its final form. -/
def lowered : List Char → List Char
  | [] => []
  | [c] => if c = 'Σ' then ['ς'] else lower c
  | c :: d :: rest => lower c ++ lowered (d :: rest)

/-- With a capital, where the word begins in ASCII. -/
def capitalized : List Char → List Char
  | [] => []
  | c :: rest => c.toUpper :: lowered rest

def snake (s : List Char) : List Char :=
  ['_'].intercalate ((ofText s).map lowered)

/-- For ASCII text. -/
def screaming (s : List Char) : List Char :=
  ['_'].intercalate ((ofText s).map (·.map Char.toUpper))

/-- For ASCII text. -/
def pascal (s : List Char) : List Char :=
  ((ofText s).map capitalized).flatten

/-- For ASCII text. -/
def camel (s : List Char) : List Char :=
  match ofText s with
  | [] => []
  | word :: rest => lowered word ++ (rest.map capitalized).flatten

end ClientGen.Words
