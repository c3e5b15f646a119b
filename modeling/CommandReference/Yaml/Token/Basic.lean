/-! Tokens of YAML. Indentation is made explicit by the tokens that start and end block
collections. -/
namespace CommandReference.Yaml

inductive Token where
  | versionDirective (major minor : Nat)
  | tagDirective (handle : String)
  | documentStart
  | documentEnd
  | blockSequenceStart
  | blockMappingStart
  | blockEnd
  | flowSequenceStart
  | flowSequenceEnd
  | flowMappingStart
  | flowMappingEnd
  | blockEntry
  | flowEntry
  | key
  | value
  | reference (name : String)
  | anchor (name : String)
  | tag (handle : String)
  | scalar (text : String) (isPlain : Bool)
  deriving Repr, DecidableEq

end CommandReference.Yaml
