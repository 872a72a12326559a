import ClientGen.Artifact
import ClientGen.Workspace

/-! Formatters. They are programs of their own, and run over the files of a client where they are installed. -/
namespace ClientGen.CommandLine

/-- A program, and the arguments that it is started with. -/
structure Invocation where
  program : String
  arguments : List String
deriving DecidableEq, Repr

def Invocation.text (c : Invocation) : String := " ".intercalate (c.program :: c.arguments)

/-- How a program ends that could be started. -/
inductive Ending
  | success
  | failure (status : String)
deriving DecidableEq, Repr

/-- What the programs of a machine do when they are started in a folder: what they make of the files, and how
they end. A program that cannot be started does nothing, for a reason. -/
abbrev Programs := Invocation → String → Workspace → Except String (Workspace × Ending)

/-- No program is installed. -/
def noPrograms : Programs := fun _ _ _ => .error FileError.missing.message

/-- What formats the files of a target. -/
def formatters : Target → List Invocation
  | .typescript => [⟨"npx", ["@biomejs/biome", "check", "--write", "."]⟩]
  | .python => [⟨"ruff", ["format", "."]⟩, ⟨"ruff", ["check", "--fix", "."]⟩]

/-- What is said of a program that was started. -/
def Ending.note (c : Invocation) : Ending → String
  | success => "  ran `" ++ c.text ++ "`"
  | failure status => "  warning: `" ++ c.text ++ "` exited with " ++ status

/-- What is said of one that could not be started. -/
def Invocation.note (c : Invocation) (folder reason : String) : String :=
  "  note: " ++ c.program ++ " not available (" ++ reason ++ "); run `" ++ c.text ++ "` in " ++ folder
    ++ " to format"

/-- Starts programs in a folder, one after the other. None of them is ever a failure; but after one that cannot
be started, the others are not tried. -/
def Programs.start (programs : Programs) (folder : String) : List Invocation → Workspace → Workspace × Lines
  | [], w => (w, [])
  | c :: rest, w =>
    match programs c folder w with
    | .ok (w, ending) =>
      let (w, log) := programs.start folder rest w
      (w, ending.note c :: log)
    | .error reason => (w, [c.note folder reason])

end ClientGen.CommandLine
