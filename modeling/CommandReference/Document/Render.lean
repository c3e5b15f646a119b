import CommandReference.Settings.Basic

/-! The document that describes a registry: a heading, an index of the groups, the
requirements, and a section for each group with a part for each of its commands. -/
namespace CommandReference

def joined (separator : String) (texts : List String) : String :=
  String.intercalate separator texts

namespace Argument

def lineOfShape (shape : String) (argument : Argument) : String :=
  let mark := if argument.isRequired then "" else "?"
  let value := match argument.shownDefault with
    | some value => " = " ++ value
    | none => ""
  let note := if argument.isRequired then "" else "*optional* "
  let description := match argument.shownDescription with
    | some text => "  \n " ++ note ++ text
    | none => ""
  "- `" ++ shape ++ mark ++ value ++ "`" ++ description ++ "\n"

/-- The name with the values it may take or, if they are not listed, with its types. -/
def namedShape (argument : Argument) : String :=
  let name := argument.name.getD ""
  if argument.choices ≠ [] then name ++ "=" ++ joined "|" argument.choiceValues
  else
    match argument.typeNames .named with
    | [] => name
    | types => name ++ ":" ++ joined "|" types

def unnamedShape (argument : Argument) : String :=
  if argument.choices ≠ [] then "=" ++ joined "|" argument.choiceValues
  else joined "|" (argument.typeNames .unnamed)

def namedLine (argument : Argument) : String :=
  argument.lineOfShape ("[" ++ argument.namedShape ++ "]")

def unnamedLine (argument : Argument) : String :=
  argument.lineOfShape ("(" ++ argument.unnamedShape ++ ")")

end Argument

namespace Document

def concat (texts : List String) : String := joined "" texts

def sectionGap : String := "\n\n\n\n\n\n"

def commandGap : String := "\n\n\n\n"

def openingFence (settings : Settings) : String :=
  Settings.fence ++ settings.exampleLanguage ++ "\n"

def examplePart (settings : Settings) (text : String) : String :=
  openingFence settings ++ text ++ Settings.fence ++ "\n\n"

def examplesPart (settings : Settings) (command : Command) : String :=
  if command.examples = [] then examplePart settings (settings.examplePlaceholder ++ "\n")
  else concat (command.examples.map (examplePart settings))

def commandPart (settings : Settings) (command : Command) : String :=
  "#### `/" ++ command.name ++ "`\n" ++
  concat (command.named.map (·.namedLine)) ++
  concat (command.unnamed.map (·.unnamedLine)) ++
  "\n" ++ command.help ++ "\n\n##### Examples\n\n" ++
  examplesPart settings command

def groupSection (settings : Settings) (group : Group) : String :=
  sectionGap ++ "### " ++ group.name ++
  concat (group.commands.map fun command => commandGap ++ commandPart settings command)

def indexEntry (group : Group) : String :=
  "\n- " ++ group.name ++ " (" ++ joined ", " group.commandNames ++ ")"

def render (settings : Settings) (requirements : String) (registry : Registry) : String :=
  "# " ++ settings.title ++ "\n\n" ++ settings.description ++ "\n\n" ++
  concat ((registry.groups.filter (!settings.isExcluded ·.name)).map indexEntry) ++
  sectionGap ++ "## Requirements\n\n" ++ requirements ++
  sectionGap ++ "## Commands\n\n" ++
  concat (registry.groups.map (groupSection settings))

end Document

end CommandReference
