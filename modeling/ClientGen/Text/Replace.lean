/-! Finding and replacing one text within another. -/
namespace ClientGen.Text

/-- What follows `front`, where the text starts with it. -/
def after? : List Char → List Char → Option (List Char)
  | [], s => some s
  | _ :: _, [] => none
  | f :: front, c :: s => if f = c then after? front s else none

/-- What comes before `back`, where the text ends with it. -/
def before? (back s : List Char) : Option (List Char) :=
  (after? back.reverse s.reverse).map List.reverse

/-- The parts before and after the first `mark`. -/
def cut? (mark : Char) : List Char → Option (List Char × List Char)
  | [] => none
  | c :: s => if c = mark then some ([], s) else (cut? mark s).map fun (a, b) => (c :: a, b)

/-- Scans once from the left; `skip` counts characters of a match already replaced. -/
def replaceFrom (old new : List Char) : Nat → List Char → List Char
  | _, [] => []
  | skip + 1, _ :: s => replaceFrom old new skip s
  | 0, c :: s =>
    if old.isPrefixOf (c :: s) then new ++ replaceFrom old new (old.length - 1) s
    else c :: replaceFrom old new 0 s

/-- Every occurrence of the non-empty text `old`, from the left and without overlap, becomes `new`. -/
def replace (old new s : List Char) : List Char := replaceFrom old new 0 s

end ClientGen.Text
