import ClientGen.Artifact
import ClientGen.Yaml.Reader

/-! The configuration file of a project. -/
namespace ClientGen
open Source

structure Config where
  /-- The document. -/
  input : String
  output : String
  mappingFile : String
  targets : List Target
  fingerprint : FingerprintMode
  options : Options
  /-- Whether formatters run over the output. -/
  format : Bool
deriving DecidableEq, Repr

namespace Config

def path : String := ".sdkgen.yaml"

def default : Config where
  input := "openapi.yaml"
  output := "generated"
  mappingFile := "sdkgen.mapping.json"
  targets := [.typescript, .python]
  fingerprint := .names
  options := ⟨.both, none, 30, false⟩
  format := false

/-- A file that says what holds without it. -/
def defaultText : String :=
  Lines.text [
    "# sdkgen configuration",
    "input: openapi.yaml",
    "output: generated",
    "mapping_file: sdkgen.mapping.json   # written on first run; edit it, then re-run",
    "targets: [typescript, python]",
    "",
    "layout: both          # flat | grouped | both",
    "fingerprint: names    # names | typed (typed also compares property types)",
    "",
    "client:",
    "  # base_url: https://api.example.com   # defaults to the document's first server",
    "  timeout: 30",
    "  no_docs: false",
    "",
    "format: false         # run biome (typescript) / ruff (python) on the output"]

def layout? : String → Option Layout
  | "flat" => some .flat
  | "grouped" => some .grouped
  | "both" => some .both
  | _ => none

def fingerprint? : String → Option FingerprintMode
  | "names" => some .names
  | "typed" => some .typed
  | _ => none

/-- The options of the generated clients, but for the layout. -/
def client? (layout : Layout) (c : Yaml.Cursor) : Yaml.Reading Options := do
  let r ← record? ["base_url", "timeout", "no_docs"] c
  return {
    layout
    baseUrl := ← r.optional "base_url" text?
    timeout := ← r.defaulted "timeout" default.options.timeout Yaml.Cursor.whole?
    noDocs := ← r.defaulted "no_docs" default.options.noDocs flag? }

/-- One of the known words. -/
def word? {α : Type} (of? : String → Option α) (c : Yaml.Cursor) : Yaml.Reading α := do
  return ← of? (← c.word?)

def read? (c : Yaml.Cursor) : Yaml.Reading Config := do
  let r ← record? ["input", "output", "mapping_file", "targets", "layout", "fingerprint", "client",
    "format"] c
  let layout ← r.defaulted "layout" default.options.layout (word? layout?)
  return {
    input := ← r.defaulted "input" default.input text?
    output := ← r.defaulted "output" default.output text?
    mappingFile := ← r.defaulted "mapping_file" default.mappingFile text?
    targets := ← r.defaulted "targets" default.targets (list? (word? Target.ofWord?))
    fingerprint := ← r.defaulted "fingerprint" default.fingerprint (word? fingerprint?)
    options := ← r.defaulted "client" { default.options with layout } (client? layout)
    format := ← r.defaulted "format" default.format flag? }

def ofText? (text : String) : Option Config := (Yaml.Node.ofText? text).bind (·.read? read?)

end Config
end ClientGen
