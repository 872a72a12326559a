import ClientGen.CommandLine.Run

/-! The command line. It reads the files that a command may need, and writes what the run has changed. From here
no program is started, so files are formatted as on a machine without formatters: not at all, but with a note. -/
namespace ClientGen.CommandLine

/-- The paths that a command may read or write, beside the configuration. -/
def Command.paths (config : Config) : Command → List String
  | .generate a =>
    let output := a.output.getD config.output
    [a.input.getD config.input, a.mapping.getD config.mappingFile]
      ++ (config.targets ++ a.targets).map fun target => Path.join output target.word
  | .validate path => [path]
  | .inspect path _ => [path]
  | _ => []

/-- Adds what is at a path: what cannot be read since it is no file is a folder. -/
def look (w : Workspace) (path : Path) : IO Workspace := do
  try
    return w.put path (← IO.FS.readFile path.toText)
  catch
    | .inappropriateType .. => return { w with folders := addNew w.folders path }
    | _ => return w

/-- Adds what is on the way along a written path. -/
def follow (w : Workspace) (text : String) : IO Workspace := do
  let parts := Path.parts text
  let places := (List.range parts.length).map fun n =>
    (parts.take (n + 1)).foldl Path.step (Path.start text)
  places.foldlM look w

/-- The workspace of a run. -/
def loadWorkspace (arguments : List String) : IO Workspace := do
  let w ← follow ⟨[], []⟩ Config.path
  let config := ((w.read Config.path).toOption.bind Config.ofText?).getD .default
  (((Command.parse? arguments).map (Command.paths config)).getD []).foldlM follow w

/-- Makes the folders and files that a run has left. -/
def save (before after : Workspace) : IO Unit := do
  for folder in after.folders do
    if !before.isFolder folder then IO.FS.createDirAll folder.toText
  for (path, text) in after.files do
    if Entries.get? before.files path ≠ some text then IO.FS.writeFile path.toText text

end ClientGen.CommandLine

open ClientGen ClientGen.CommandLine in
def main (arguments : List String) : IO UInt32 := do
  let w ← loadWorkspace arguments
  let outcome := run w arguments
  save w outcome.workspace
  IO.print outcome.stdout
  IO.eprint outcome.stderr
  return outcome.exit.toUInt32
