import CommandReference.Command.Shape
import CommandReference.Json.Printer
import CommandReference.Json.Reader
import CommandReference.Yaml.Printer

/-! The registry written out as data. -/
namespace CommandReference

inductive DumpFormat where
  | json
  | yaml
  deriving Repr, DecidableEq

def Registry.dump (format : DumpFormat) (registry : Registry) : String :=
  match format with
  | .json => registry.toJson.pretty ++ "\n"
  | .yaml => Yaml.document (registry.groups.map Group.toJson)

def Registry.ofDump? (text : String) : Option Registry := (Json.parse? text).bind ofJson?

end CommandReference
