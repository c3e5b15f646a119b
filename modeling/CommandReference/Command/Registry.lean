import CommandReference.Command.Basic

/-! The registry of commands: groups in the order in which they were first seen, each
with its commands in the order of their declaration. A look-up by name finds the
first group, and in it the first command, of that name. -/
namespace CommandReference

structure Group where
  name : String
  commands : List Command
  deriving Repr, DecidableEq, Inhabited

structure Registry where
  groups : List Group
  deriving Repr, DecidableEq, Inhabited

def updateFirst {α : Type} (p : α → Bool) (change : α → α) : List α → List α
  | [] => []
  | a :: later => if p a then change a :: later else a :: updateFirst p change later

namespace Group

def find? (name : String) (group : Group) : Option Command :=
  group.commands.find? (·.name == name)

def commandNames (group : Group) : List String := group.commands.map (·.name)

def add (command : Command) (group : Group) : Group :=
  { group with commands := group.commands ++ [command] }

end Group

namespace Registry

def empty : Registry := ⟨[]⟩

def isEmpty (registry : Registry) : Bool := registry.groups.isEmpty

def group? (name : String) (registry : Registry) : Option Group :=
  registry.groups.find? (·.name == name)

def find? (group name : String) (registry : Registry) : Option Command :=
  (registry.group? group).bind (·.find? name)

def groupNames (registry : Registry) : List String := registry.groups.map (·.name)

def commandCount (registry : Registry) : Nat :=
  (registry.groups.flatMap (·.commands)).length

/-- Adds an empty group at the end, unless there is one of this name. -/
def ensureGroup (name : String) (registry : Registry) : Registry :=
  if (registry.group? name).isSome then registry else ⟨registry.groups ++ [⟨name, []⟩]⟩

def updateGroup (name : String) (change : Group → Group) (registry : Registry) : Registry :=
  ⟨updateFirst (·.name == name) change registry.groups⟩

def push (group : String) (command : Command) (registry : Registry) : Registry :=
  (registry.ensureGroup group).updateGroup group (·.add command)

def update (group name : String) (change : Command → Command) (registry : Registry) : Registry :=
  registry.updateGroup group fun found =>
    { found with commands := updateFirst (·.name == name) change found.commands }

end Registry

/-- The place of a command in a registry, which stays the same while commands are
appended: the name of its group and its position there. -/
structure CommandRef where
  group : String
  index : Nat
  deriving Repr, DecidableEq, Inhabited

namespace Registry

def command? (ref : CommandRef) (registry : Registry) : Option Command :=
  (registry.group? ref.group).bind fun group => group.commands[ref.index]?

def updateAt (ref : CommandRef) (change : Command → Command) (registry : Registry) : Registry :=
  registry.updateGroup ref.group fun group =>
    { group with commands := group.commands.modify ref.index change }

def nextRef (group : String) (registry : Registry) : CommandRef :=
  ⟨group, ((registry.group? group).map (·.commands.length)).getD 0⟩

end Registry

end CommandReference
