import ClientGen.Entries
import ClientGen.Path

/-! The files that a command works on. A written path is followed part by part, so that even a part
that leads back needs a folder to lead back from. -/
namespace ClientGen

inductive FileError
  | missing
  | present
  | notFolder
  | isFolder
  | longName
  | zeroByte
deriving DecidableEq, Repr

def FileError.message : FileError → String
  | missing => "No such file or directory (os error 2)"
  | present => "File exists (os error 17)"
  | notFolder => "Not a directory (os error 20)"
  | isFolder => "Is a directory (os error 21)"
  | longName => "File name too long (os error 36)"
  | zeroByte => "file name contained an unexpected NUL byte"

structure Workspace where
  files : Entries Path String
  folders : List Path

namespace Workspace

/-- The workspace with a file, and the folders that it is in. -/
def put (w : Workspace) (p : Path) (text : String) : Workspace where
  files := Entries.put w.files p text
  folders := (Path.folders p.dropLast).foldl addNew w.folders

def ofFiles (files : List (Path × String)) : Workspace :=
  files.foldl (fun w (p, text) => w.put p text) ⟨[], []⟩

def isFile (w : Workspace) (p : Path) : Bool := Entries.has w.files p

/-- The working folder, those around it and the root of the system are always there. -/
def isFolder (w : Workspace) (p : Path) : Bool := p.all (· = "..") || p = ["/"] || p ∈ w.folders

/-- Whether a name has more bytes than a folder can hold. -/
def isLong (name : String) : Bool := 255 < name.utf8ByteSize

/-- What no written path may be. -/
def check (text : String) : Except FileError Unit :=
  if '\x00' ∈ text.toList then .error .zeroByte
  else if text = "" then .error .missing
  else if 4096 ≤ text.utf8ByteSize then .error .longName
  else .ok ()

/-- One part of a written path further. -/
def enter (w : Workspace) (p : Path) (part : String) : Except FileError Path :=
  if w.isFile p then .error .notFolder
  else if isLong part then .error .longName
  else if w.isFile (p.step part) || w.isFolder (p.step part) then .ok (p.step part)
  else .error .missing

def walk (w : Workspace) (start : Path) (parts : List String) : Except FileError Path :=
  parts.foldlM w.enter start

def endsWithSlash (text : String) : Bool := text.toList.getLast? = some '/'

/-- The file or folder at a written path; a slash at the end asks for a folder. -/
def find (w : Workspace) (text : String) : Except FileError Path := do
  check text
  let p ← w.walk (Path.start text) (Path.parts text)
  if endsWithSlash text && w.isFile p then .error .notFolder else .ok p

def has (w : Workspace) (text : String) : Bool := (w.find text).isOk

def read (w : Workspace) (text : String) : Except FileError String := do
  match Entries.get? w.files (← w.find text) with
  | some content => .ok content
  | none => .error .isFolder

/-- Where the last part of a path belongs, whether it is there or not. It may not be a name, and then
leads to a folder that is there. -/
def place? (w : Workspace) (start : Path) (parts : List String) : Except FileError (Option Path) := do
  let folder ← w.walk start parts.dropLast
  if w.isFile folder then .error .notFolder
  else
    match parts.getLast? with
    | none | some "." | some ".." => .ok none
    | some name => .ok (some (folder ++ [name]))

/-- Creates or replaces a file, in a folder that is there. -/
def write (w : Workspace) (path text : String) : Except FileError Workspace := do
  check path
  match ← w.place? (Path.start path) (Path.parts path) with
  | none => .error .isFolder
  | some p =>
    if endsWithSlash path then .error .isFolder
    else if p.getLast?.any isLong then .error .longName
    else if w.isFolder p then .error .isFolder
    else .ok { w with files := Entries.put w.files p text }

/-- Creates a folder in one that is there. -/
def makeFolder (w : Workspace) (start : Path) (parts : List String) : Except FileError Workspace := do
  match ← w.place? start parts with
  | none => .error .present
  | some p =>
    if p.getLast?.any isLong then .error .longName
    else if w.isFile p || w.isFolder p then .error .present
    else .ok { w with folders := w.folders ++ [p] }

/-- Creates a folder, unless it is there. -/
def ensureFolder (w : Workspace) (start : Path) (parts : List String) : Workspace × Option FileError :=
  match w.makeFolder start parts with
  | .ok w => (w, none)
  | .error e =>
    let isThere := (w.walk start parts).toOption.any w.isFolder
    (w, if isThere then none else some e)

/-- Creates a folder, and the folders on the way where they are missing. The parts of its path are given
from the last to the first. -/
def ensureFolders (w : Workspace) (start : Path) : List String → Workspace × Option FileError
  | [] => (w, none)
  | part :: outer =>
    let parts := (part :: outer).reverse
    match w.ensureFolder start parts with
    | (_, some .missing) =>
      match w.ensureFolders start outer with
      | (w, none) => w.ensureFolder start parts
      | failed => failed
    | made => made

/-- Creates a folder, and those that it is in. What was created stays where the rest fails. -/
def makeFolders (w : Workspace) (path : String) : Workspace × Option FileError :=
  match check path with
  | .error e => (w, some e)
  | .ok () => w.ensureFolders (Path.start path) ((Path.parts path).filter (· ≠ ".")).reverse

def remove (w : Workspace) (p : Path) : Workspace :=
  { w with files := w.files.filter fun f => f.1 ≠ p }

/-- The files of the working folder that are new or hold another text, by path. -/
def changes (before after : Workspace) : List (Path × String) :=
  (after.files.filter fun f => !f.1.isOutside && Entries.get? before.files f.1 ≠ some f.2).mergeSort
    fun a b => a.1.toText ≤ b.1.toText

end Workspace
end ClientGen
