import ClientGen.Artifact
import ClientGen.Document.Load

/-! The arguments of the command line. -/
namespace ClientGen.CommandLine

structure GenerateArguments where
  input : Option String
  mapping : Option String
  output : Option String
  targets : List Target

inductive Command
  | generate (arguments : GenerateArguments)
  | validate (input : String)
  | inspect (input : String) (format : Format)
  | init (force : Bool)
  | help
  | version

/-- An option: its long name, its letter, and whether a value goes with it. -/
structure OptionSpec where
  name : String
  letter : Option Char
  isFlag : Bool
  /-- Whether it may be given several times. -/
  repeats : Bool
  accepts : String → Bool

def pathOption (name : String) (letter : Char) : OptionSpec :=
  ⟨name, some letter, false, false, (· ≠ "")⟩

def format? : String → Option Format
  | "yaml" => some .yaml
  | "json" => some .json
  | _ => none

def generateOptions : List OptionSpec :=
  [pathOption "input" 'i', pathOption "mapping" 'm', pathOption "output" 'o',
    ⟨"target", none, false, true, fun value => (Target.ofWord? value).isSome⟩]

def validateOptions : List OptionSpec := [pathOption "input" 'i']

def inspectOptions : List OptionSpec :=
  [pathOption "input" 'i', ⟨"format", none, false, false, fun value => (format? value).isSome⟩]

def initOptions : List OptionSpec := [⟨"force", none, true, false, fun _ => true⟩]

/-- The options that were given, in order; flags have an empty value. -/
abbrev Given := List (String × String)

def Given.value? (given : Given) (name : String) : Option String :=
  (given.find? (·.1 = name)).map Prod.snd

def Given.values (given : Given) (name : String) : List String :=
  (given.filter (·.1 = name)).map Prod.snd

inductive Parsed
  | options (given : Given)
  | help
  | invalid

/-- An argument by its form. -/
inductive Argument
  | long (name : String) (value : Option String)
  | short (letter : Char) (rest : List Char)
  | terminator
  | other

def Argument.of (s : String) : Argument :=
  match s.toList with
  | ['-', '-'] => .terminator
  | '-' :: '-' :: name =>
    match name.span (· ≠ '=') with
    | (name, '=' :: value) => .long (String.ofList name) (some (String.ofList value))
    | (name, _) => .long (String.ofList name) none
  | '-' :: letter :: rest => .short letter rest
  | _ => .other

/-- What an option takes from the next argument: anything that does not look like an option itself. -/
def isValue (s : String) : Bool := Argument.of s matches .other

/-- Adds an option that may be given, with a value that it accepts. -/
def add? (spec : OptionSpec) (value : String) (given : Given) : Option Given :=
  if !spec.repeats && given.any (·.1 = spec.name) then none
  else if spec.accepts value then some (given ++ [(spec.name, value)])
  else none

/-- The value written together with the letter of an option, with or without an equals sign. -/
def attached : List Char → Option String
  | [] => none
  | '=' :: value => some (String.ofList value)
  | value => some (String.ofList value)

/-- Reads arguments from left to right; the first that is wrong or asks for help decides. -/
def parseOptions (specs : List OptionSpec) : List String → Given → Parsed
  | [], given => .options given
  | s :: rest, given =>
    let take (spec : OptionSpec) (value : Option String) : Parsed :=
      match value, rest with
      | some value, rest =>
        match add? spec value given with
        | some given => parseOptions specs rest given
        | none => .invalid
      | none, value :: rest =>
        if isValue value then
          match add? spec value given with
          | some given => parseOptions specs rest given
          | none => .invalid
        else .invalid
      | none, [] => .invalid
    match Argument.of s with
    | .long "help" none => .help
    | .long name value =>
      match specs.find? (·.name = name) with
      | none => .invalid
      | some spec =>
        if spec.isFlag then if value.isSome then .invalid else take spec (some "")
        else take spec value
    | .short 'h' _ => .help
    | .short letter value =>
      match specs.find? (·.letter = some letter) with
      | none => .invalid
      | some spec => take spec (attached value)
    | .terminator => if rest.isEmpty then .options given else .invalid
    | .other => .invalid

/-- The command that the options of a subcommand make, if none is missing. -/
def parseWith (specs : List OptionSpec) (arguments : List String)
    (command? : Given → Option Command) : Option Command :=
  match parseOptions specs arguments [] with
  | .options given => command? given
  | .help => some .help
  | .invalid => none

def generate? (given : Given) : Option Command :=
  some <| .generate {
    input := given.value? "input"
    mapping := given.value? "mapping"
    output := given.value? "output"
    targets := (given.values "target").filterMap Target.ofWord? }

def inspect? (given : Given) : Option Command := do
  let input ← given.value? "input"
  return .inspect input (((given.value? "format").bind format?).getD .yaml)

def subcommands : List String := ["generate", "validate", "inspect", "init", "help"]

/-- The command that the arguments ask for, unless they are wrong. -/
def Command.parse? : List String → Option Command
  | "generate" :: rest => parseWith generateOptions rest generate?
  | "validate" :: rest =>
    parseWith validateOptions rest fun given => (given.value? "input").map .validate
  | "inspect" :: rest => parseWith inspectOptions rest inspect?
  | "init" :: rest => parseWith initOptions rest fun given => some (.init (given.value? "force").isSome)
  | ["help"] => some .help
  | ["help", name] => if name ∈ subcommands then some .help else none
  | s :: _ =>
    match Argument.of s with
    | .long "help" none | .short 'h' _ => some .help
    | .long "version" none | .short 'V' _ => some .version
    | _ => none
  | [] => none

end ClientGen.CommandLine
