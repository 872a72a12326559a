import ClientGen.Yaml.Tag

/-! The tokens of a YAML text. -/
namespace ClientGen.Yaml

/-- How a scalar is written, as far as it matters to its reader. -/
inductive Style
  | plain
  | literal
  | quoted
deriving DecidableEq, Repr

inductive Token
  | versionDirective (major minor : Nat)
  | tagDirective (handle : String) (start : Tag)
  | documentStart
  | documentEnd
  | blockSequenceStart
  | blockMappingStart
  | blockEnd
  | flowSequenceStart
  | flowSequenceEnd
  | flowMappingStart
  | flowMappingEnd
  | blockEntry
  | flowEntry
  | key
  | value
  /-- An alias. -/
  | reference (name : String)
  | anchor (name : String)
  | tag (handle : String) (rest : Tag)
  | scalar (text : String) (style : Style)
  | streamEnd
deriving DecidableEq, Repr

end ClientGen.Yaml
