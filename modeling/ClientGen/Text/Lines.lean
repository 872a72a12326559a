/-! Generated text, line by line. -/
namespace ClientGen

abbrev Lines := List String

namespace Lines

/-- Indented by `width` spaces; an empty line stays empty. -/
def indent (width : Nat) (ls : Lines) : Lines :=
  ls.map fun l => if l.isEmpty then l else String.ofList (List.replicate width ' ') ++ l

/-- One after the other, with an empty line between. -/
def apart : List Lines → Lines
  | [] => []
  | [ls] => ls
  | ls :: rest => ls ++ "" :: apart rest

/-- Every line with its end. -/
def text (ls : Lines) : String := String.join (ls.map (· ++ "\n"))

/-- The line that heads a file: after the comment mark, what the file was generated from. -/
def header (mark : String) (sources : List String) : String :=
  mark ++ " Generated by sdkgen"
    ++ (if sources.isEmpty then "" else " from " ++ " ".intercalate sources)
    ++ ". Do not edit."

end Lines
end ClientGen
