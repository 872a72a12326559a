import ClientGen.Api.Extract
import ClientGen.CommandLine.Arguments
import ClientGen.CommandLine.Failure
import ClientGen.CommandLine.Formatter
import ClientGen.Inspect
import ClientGen.Json.Printer
import ClientGen.Package
import ClientGen.Yaml.Printer

/-! What the commands do. Everything is read and rendered before the first file is written. -/
namespace ClientGen.CommandLine

structure Outcome where
  exit : Nat
  stdout : String
  stderr : String
  workspace : Workspace

def Outcome.success (w : Workspace) (log : Lines) : Outcome := ⟨0, "", Lines.text log, w⟩

def Outcome.failure (w : Workspace) (log : Lines) (f : Failure) : Outcome :=
  ⟨1, "", Lines.text log ++ f.report, w⟩

/-- The configuration, or what holds without one. -/
def readConfig (w : Workspace) : Except Failure Config :=
  if w.has Config.path then
    match w.read Config.path with
    | .ok text =>
      match Config.ofText? text with
      | some c => .ok c
      | none => .error .config
    | .error e => .error (.configUnread e)
  else .ok .default

/-- JSON goes by the name of the file. -/
def formatOf (path : String) : Format :=
  if Path.extension? path = some "json" then .json else .yaml

def readDocument (w : Workspace) (path : String) : Except Failure Document := do
  let text ← (w.read path).mapError (.unread path)
  (Document.load (formatOf path) text).mapError (.document path)

/-- The mapping table; a file that cannot be read counts as an empty one. -/
def readMapping (w : Workspace) (path : String) : Option MappingTable :=
  if w.has path then
    some (match w.read path with
      | .ok text => .ofText text
      | .error _ => .empty)
  else none

/-- A client that is ready to be written. -/
structure Package where
  target : Target
  folder : String
  files : List SourceFile

/-- What a run of `generate` is going to do. -/
inductive Plan
  | bootstrap (path : String) (table : MappingTable)
  | write (packages : List Package) (format : Bool)

namespace Plan

/-- A client rendered for one target, under the output folder. -/
def package (m : Model) (o : Options) (output : String) (target : Target) :
    Except Failure Package := do
  let files ← (m.generate target o).mapError (.generate target)
  return ⟨target, Path.join output target.word, files⟩

/-- Arguments go before the configuration. -/
def make (w : Workspace) (a : GenerateArguments) : Except Failure Plan := do
  let c ← readConfig w
  let mappingPath := a.mapping.getD c.mappingFile
  let d ← readDocument w (a.input.getD c.input)
  let prepared ← (d.extract.prepare (readMapping w mappingPath) c.fingerprint).mapError .mapping
  match prepared with
  | .bootstrap table => return .bootstrap mappingPath table
  | .ready m =>
    let targets := if a.targets.isEmpty then c.targets else a.targets
    let packages ← targets.mapM (package m c.options (a.output.getD c.output))
    return .write packages c.format

end Plan

/-- What was written and said so far, or the failure that ended it. -/
abbrev Writing := Workspace × Lines × Option Failure

def Writing.finish : Writing → Lines → Nat → Outcome
  | (w, log, some f), _, _ => .failure w log f
  | (w, log, none), last, exit => ⟨exit, "", Lines.text (log ++ last), w⟩

/-- Goes on, unless something failed. -/
def Writing.andThen (r : Writing) (next : Workspace → Writing) : Writing :=
  match r with
  | (w, said, none) =>
    let (w, more, failed) := next w
    (w, said ++ more, failed)
  | stopped => stopped

def Writing.say (r : Writing) (line : String) : Writing := r.andThen fun w => (w, [line], none)

/-- Writes a file and says so; a failure to do so leaves all as it was. -/
def writeFile (failure : FileError → Failure) (path text : String) (log : Lines) (w : Workspace) : Writing :=
  match w.write path text with
  | .ok w => (w, log, none)
  | .error e => (w, [], some (failure e))

def makeFolders (path : String) (w : Workspace) : Writing :=
  let (w, e) := w.makeFolders path
  (w, [], e.map (.folder path))

def Package.writeFile (p : Package) (f : SourceFile) (w : Workspace) : Writing :=
  let path := Path.join p.folder f.name
  CommandLine.writeFile (.unwritten path) path f.text ["  wrote " ++ path] w

/-- Runs the formatters of the target, if there are to be any. -/
def Package.format (programs : Programs) (format : Bool) (p : Package) (w : Workspace) : Writing :=
  if format then
    let (w, log) := programs.start p.folder (formatters p.target) w
    (w, log, none)
  else (w, [], none)

def Package.write (programs : Programs) (format : Bool) (r : Writing) (p : Package) : Writing :=
  let started := r.say ("Generating " ++ p.target.word ++ " → " ++ p.folder)
  let opened := started.andThen (makeFolders p.folder)
  let written := p.files.foldl (fun r f => r.andThen (p.writeFile f)) opened
  let formatted := written.andThen (p.format programs format)
  formatted.say ("Generated " ++ toString p.files.length ++ " files in " ++ p.folder)

/-- The exit code that says that a mapping was written, and nothing generated. -/
def bootstrapped : Nat := 2

def Plan.run (programs : Programs) (w : Workspace) : Plan → Outcome
  | .bootstrap path table =>
    let r := writeFile (.unwritten path) path table.toText
      ["Wrote " ++ path ++ " with " ++ toString table.operations.length ++ " operations and "
        ++ toString table.schemas.length ++ " schemas."] w
    r.finish ["Mapping file generated; edit it if needed and re-run to apply."] bootstrapped
  | .write [] _ =>
    .success w ["No targets configured. Add a `targets` list to your config."]
  | .write packages format =>
    Writing.finish (packages.foldl (Package.write programs format) (w, [], none))
      ["",
        "The generated directories should not be edited manually; changes will be overwritten."] 0

def generate (programs : Programs) (w : Workspace) (a : GenerateArguments) : Outcome :=
  match Plan.make w a with
  | .ok plan => plan.run programs w
  | .error f => .failure w [] f

def validate (w : Workspace) (path : String) : Outcome :=
  match readDocument w path with
  | .error f => .failure w [] f
  | .ok d =>
    let api := d.extract
    let streaming := (api.operations.filter (·.isStreaming)).length
    .success w <|
      ["Valid OpenAPI " ++ d.openapi ++ " document: " ++ d.info.title,
        "  Version: " ++ d.info.version,
        "  Paths: " ++ toString d.paths.length]
        ++ (d.components.toList.map fun c => "  Schemas: " ++ toString c.schemas.length)
        ++ ["  Operations: " ++ toString api.operations.length ++ " (" ++ toString streaming
            ++ " streaming)",
          "  Declared schemas: " ++ toString api.schemas.length,
          "Validation successful."]

def inspect (w : Workspace) (path : String) (format : Format) : Outcome :=
  let summary : Except Failure Value := do
    let c ← readConfig w
    let d ← readDocument w path
    return d.extract.summary c.fingerprint
  match summary with
  | .error f => .failure w [] f
  | .ok summary =>
    let text := match format with
      | .yaml => summary.toYaml
      | .json => summary.toJson ++ "\n"
    ⟨0, text, "", w⟩

def init (w : Workspace) (force : Bool) : Outcome :=
  if w.has Config.path && !force then .failure w [] .configExists
  else
    (writeFile .configUnwritten Config.path Config.defaultText ["Created " ++ Config.path] w).finish [] 0

def helpText : String :=
  Lines.text [
    "OpenAPI 3.x client SDK generator",
    "",
    "  generate [-i INPUT] [-m MAPPING] [-o OUTPUT] [--target TARGET]...",
    "  validate -i INPUT",
    "  inspect -i INPUT [--format yaml|json]",
    "  init [--force]"]

/-- A run on a machine with certain programs. -/
def runWith (programs : Programs) (w : Workspace) (arguments : List String) : Outcome :=
  match Command.parse? arguments with
  | none => ⟨2, "", "usage error", w⟩
  | some .help => ⟨0, helpText, "", w⟩
  | some .version => ⟨0, "sdkgen 0.3.0\n", "", w⟩
  | some (.generate a) => generate programs w a
  | some (.validate path) => validate w path
  | some (.inspect path format) => inspect w path format
  | some (.init force) => init w force

/-- A run on a machine without any. -/
def run (w : Workspace) (arguments : List String) : Outcome := runWith noPrograms w arguments

end ClientGen.CommandLine
