/-! Paths, as they are written and as the names on the way to a file. -/
namespace ClientGen

/-- The names on the way to a file, from the folder in which a command runs. They begin with `..` where
the way leads out of that folder, and with a slash where it begins at the root of the system. -/
abbrev Path := List String

namespace Path

/-- The folder around a file or a folder. -/
def parent (p : Path) : Path :=
  if p = ["/"] then p else if p.all (· = "..") then p ++ [".."] else p.dropLast

/-- One part of a written path further. -/
def step (p : Path) (part : String) : Path :=
  if part = "." then p else if part = ".." then p.parent else p ++ [part]

/-- Where a written path begins. -/
def start (text : String) : Path := if text.toList.head? = some '/' then ["/"] else []

/-- What a written path has between its slashes. -/
def parts (text : String) : List String :=
  ((text.toList.splitOn '/').map String.ofList).filter (· ≠ "")

/-- Where a written path leads, if all the folders on the way are there. -/
def ofText (text : String) : Path := (parts text).foldl step (start text)

def toText : Path → String
  | "/" :: names => "/" ++ "/".intercalate names
  | names => "/".intercalate names

/-- Whether the way leads out of the working folder. -/
def isOutside (p : Path) : Bool := p.head?.any fun name => name = ".." || name = "/"

/-- The folders on the way, the path itself included. -/
def folders (p : Path) : List Path := (List.range p.length).map fun n => p.take (n + 1)

/-- A name within a folder, as texts. -/
def join (folder name : String) : String :=
  match folder.toList.getLast? with
  | none | some '/' => folder ++ name
  | some _ => folder ++ "/" ++ name

/-- What follows the last point of the last name, unless that point comes first. -/
def extension? (text : String) : Option String :=
  ((parts text).filter (· ≠ ".")).getLast?.bind fun name =>
    if name = ".." then none
    else
      match name.toList.reverse.span (· ≠ '.') with
      | (back, '.' :: _ :: _) => some (String.ofList back.reverse)
      | _ => none

end Path
end ClientGen
