import CommandReference.Command.Shape
import CommandReference.Yaml.Node.Anchor
import CommandReference.Yaml.Node.Reader

/-! Settings read from YAML. Any scalar is taken as its text, whatever it looks like. A
key that is left out keeps its standard value, unknown keys are passed over, and no key
may be given twice. -/
namespace CommandReference.Settings
open Yaml

def text? : Node Nat → Option String
  | .scalar _ text _ => some text
  | _ => none

/-- A sequence of texts; a value that is left out is the empty one. -/
def texts? (root : Node Nat) : Node Nat → Option (List String)
  | .sequence _ items => items.mapM fun item => text? (root.meaning item)
  | .scalar _ text isPlain => if text = "" && isPlain then some [] else none
  | _ => none

def ofEntries? (root : Node Nat) (entries : List (Node Nat × Node Nat)) : Option Settings := do
  let named ← entries.mapM fun (key, value) =>
    return (← text? (root.meaning key), root.meaning value)
  if keys.any fun key => 1 < (named.filter (·.1 == key)).length then none
  let field := fun (key : String) (standardText : String) =>
    ((named.lookup key).map text?).getD (some standardText)
  return {
    title := ← field "title" standard.title
    description := ← field "description" standard.description
    defaultGroup := ← field "default_group" standard.defaultGroup
    excludedGroups :=
      ← ((named.lookup "excluded_groups").map (texts? root)).getD (some standard.excludedGroups)
    exampleLanguage := ← field "example_language" standard.exampleLanguage
    examplePlaceholder := ← field "example_placeholder" standard.examplePlaceholder }

/-- The settings in the tree of a document; an empty document has the standard ones. -/
def ofNode? (root : Node Nat) : Option Settings :=
  match root with
  | .mapping _ entries => ofEntries? root entries
  | .scalar _ text isPlain => if text = "" && isPlain then some standard else none
  | _ => none

def ofYaml? (text : String) : Option Settings := do
  let (root, _) ← (← Node.ofText? text.toList).number []
  ofNode? root

end CommandReference.Settings
