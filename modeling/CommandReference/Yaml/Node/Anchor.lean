import CommandReference.Yaml.Node.Basic

/-! Anchors by number. In the order of the document an anchor gets as its number how many
names have been used before it, so an anchor of a name that was used already shares its
number with the next new name. An alias means the number that its name has at that place,
and the node to which the last anchor of that number belongs. -/
namespace CommandReference.Yaml

abbrev AnchorNames := List (String × Nat)

def AnchorNames.define (anchor : Option String) (names : AnchorNames) :
    Option Nat × AnchorNames :=
  match anchor with
  | none => (none, names)
  | some name => (some names.length, (name, names.length) :: names.filter (·.1 ≠ name))

namespace Node

mutual

/-- Puts numbers for names. An alias has to follow an anchor of its name. -/
def number (names : AnchorNames) : Node String → Option (Node Nat × AnchorNames)
  | reference name => (names.lookup name).map (reference ·, names)
  | scalar anchor text isPlain =>
    let (anchor, names) := names.define anchor
    some (scalar anchor text isPlain, names)
  | sequence anchor items => do
    let (anchor, names) := names.define anchor
    let (items, names) ← numberItems names items
    return (sequence anchor items, names)
  | mapping anchor entries => do
    let (anchor, names) := names.define anchor
    let (entries, names) ← numberEntries names entries
    return (mapping anchor entries, names)

def numberItems (names : AnchorNames) : List (Node String) → Option (List (Node Nat) × AnchorNames)
  | [] => some ([], names)
  | item :: later => do
    let (item, names) ← number names item
    let (later, names) ← numberItems names later
    return (item :: later, names)

def numberEntries (names : AnchorNames) :
    List (Node String × Node String) → Option (List (Node Nat × Node Nat) × AnchorNames)
  | [] => some ([], names)
  | (key, value) :: later => do
    let (key, names) ← number names key
    let (value, names) ← number names value
    let (later, names) ← numberEntries names later
    return ((key, value) :: later, names)

end

def anchored (anchor : Option Nat) (node : Node Nat) : List (Nat × Node Nat) :=
  anchor.toList.map (·, node)

mutual

def anchors : Node Nat → List (Nat × Node Nat)
  | reference _ => []
  | scalar anchor text isPlain => anchored anchor (scalar anchor text isPlain)
  | sequence anchor items => anchored anchor (sequence anchor items) ++ itemAnchors items
  | mapping anchor entries => anchored anchor (mapping anchor entries) ++ entryAnchors entries

def itemAnchors : List (Node Nat) → List (Nat × Node Nat)
  | [] => []
  | item :: later => anchors item ++ itemAnchors later

def entryAnchors : List (Node Nat × Node Nat) → List (Nat × Node Nat)
  | [] => []
  | (key, value) :: later => anchors key ++ anchors value ++ entryAnchors later

end

def meaning (root : Node Nat) : Node Nat → Node Nat
  | reference slot => (root.anchors.reverse.lookup slot).getD omitted
  | node => node

end Node

end CommandReference.Yaml
