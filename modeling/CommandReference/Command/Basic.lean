import CommandReference.Text.Lower

/-! Slash commands: what a registration source declares about a command, together with
the examples and the usage line that an older document kept for it. -/
namespace CommandReference

structure Choice where
  value : String
  description : Option String
  deriving Repr, DecidableEq, Inhabited

/-- An argument of a command. Type tags stay as written in the source; `none` says that
no tags were declared. -/
structure Argument where
  name : Option String
  description : Option String
  typeTags : Option (List String)
  isRequired : Bool
  acceptsMultiple : Bool
  /-- The default value, already reduced to the text that is shown. -/
  defaultValue : Option String
  choices : List Choice
  deriving Repr, DecidableEq, Inhabited

inductive ArgumentKind where
  | named
  | unnamed
  deriving Repr, DecidableEq, Inhabited

structure Command where
  name : String
  usage : Option String
  help : String
  named : List Argument
  unnamed : List Argument
  examples : List String
  deriving Repr, DecidableEq, Inhabited

namespace Argument

def blank : Argument := ⟨none, none, none, false, false, none, []⟩

def ofName (name : String) : Argument := { blank with name := some name }

def addChoice (choice : Choice) (argument : Argument) : Argument :=
  { argument with choices := argument.choices ++ [choice] }

def fallbackTag : String := "string"

def effectiveTags (kind : ArgumentKind) (argument : Argument) : List String :=
  match argument.typeTags, kind with
  | some tags, _ => tags
  | none, .unnamed => [fallbackTag]
  | none, .named => []

def lastSegment (tag : String) : String :=
  String.ofList (tag.toList.reverse.takeWhile (· != '.')).reverse

def typeNames (kind : ArgumentKind) (argument : Argument) : List String :=
  (argument.effectiveTags kind).map fun tag => Text.lower (lastSegment tag)

def choiceValues (argument : Argument) : List String := argument.choices.map (·.value)

def shownDefault (argument : Argument) : Option String :=
  argument.defaultValue.filter (· ≠ "")

def shownDescription (argument : Argument) : Option String :=
  argument.description.filter (· ≠ "")

end Argument

namespace Command

def ofName (name : String) : Command := ⟨name, none, "", [], [], []⟩

def argumentCount (command : Command) : Nat := command.named.length + command.unnamed.length

def addArgument (kind : ArgumentKind) (argument : Argument) (command : Command) : Command :=
  match kind with
  | .named => { command with named := command.named ++ [argument] }
  | .unnamed => { command with unnamed := command.unnamed ++ [argument] }

def addExample (text : String) (command : Command) : Command :=
  { command with examples := command.examples ++ [text] }

end Command

end CommandReference
