import CommandReference.Command.Registry
import CommandReference.Json.Basic
import CommandReference.Settings.Basic

/-! Commands and settings as JSON records. Options that are absent and some of the empty
lists are not written; what is absent is read back as the same default. -/
namespace CommandReference
open Json

def optionEntry {α : Type} (key : String) (write : α → Json) : Option α → List (String × Json)
  | none => []
  | some value => [(key, write value)]

def listEntry {α : Type} (key : String) (write : α → Json) (items : List α) :
    List (String × Json) :=
  if items.isEmpty then [] else [(key, array (items.map write))]

def texts (items : List String) : Json := array (items.map string)

namespace Choice

def toJson (choice : Choice) : Json :=
  object (("value", string choice.value) :: optionEntry "description" string choice.description)

def ofJson? (json : Json) : Option Choice := do
  match ← json.fields? ["value", "description"] with
  | [some value, description] =>
    return ⟨← value.string?, ← fieldOr none (nullable? string?) description⟩
  | _ => none

end Choice

namespace Argument

def toJson (argument : Argument) : Json :=
  object (
    optionEntry "name" string argument.name ++
    optionEntry "description" string argument.description ++
    optionEntry "type_list" texts argument.typeTags ++
    [("is_required", bool argument.isRequired),
      ("accepts_multiple", bool argument.acceptsMultiple)] ++
    optionEntry "default_value" string argument.defaultValue ++
    listEntry "enum_list" Choice.toJson argument.choices)

def ofJson? (json : Json) : Option Argument := do
  match ← json.fields? ["name", "description", "type_list", "is_required", "accepts_multiple",
      "default_value", "enum_list"] with
  | [name, description, typeTags, isRequired, acceptsMultiple, defaultValue, choices] =>
    return {
      name := ← fieldOr none (nullable? string?) name
      description := ← fieldOr none (nullable? string?) description
      typeTags := ← fieldOr none (nullable? (list? string?)) typeTags
      isRequired := ← fieldOr false bool? isRequired
      acceptsMultiple := ← fieldOr false bool? acceptsMultiple
      defaultValue := ← fieldOr none (nullable? string?) defaultValue
      choices := ← fieldOr [] (list? Choice.ofJson?) choices }
  | _ => none

end Argument

namespace Command

def toJson (command : Command) : Json :=
  object (
    [("name", string command.name)] ++
    optionEntry "args" string command.usage ++
    [("help", string command.help)] ++
    listEntry "named" Argument.toJson command.named ++
    listEntry "unnamed" Argument.toJson command.unnamed ++
    listEntry "examples" string command.examples)

def ofJson? (json : Json) : Option Command := do
  match ← json.fields? ["name", "args", "help", "named", "unnamed", "examples"] with
  | [some name, usage, help, named, unnamed, examples] =>
    return {
      name := ← name.string?
      usage := ← fieldOr none (nullable? string?) usage
      help := ← fieldOr "" string? help
      named := ← fieldOr [] (list? Argument.ofJson?) named
      unnamed := ← fieldOr [] (list? Argument.ofJson?) unnamed
      examples := ← fieldOr [] (list? string?) examples }
  | _ => none

end Command

namespace Group

def toJson (group : Group) : Json :=
  object [("name", string group.name), ("commands", array (group.commands.map Command.toJson))]

def ofJson? (json : Json) : Option Group := do
  match ← json.fields? ["name", "commands"] with
  | [some name, some commands] => return ⟨← name.string?, ← commands.list? Command.ofJson?⟩
  | _ => none

end Group

namespace Registry

def toJson (registry : Registry) : Json := array (registry.groups.map Group.toJson)

def ofJson? (json : Json) : Option Registry := return ⟨← json.list? Group.ofJson?⟩

end Registry

namespace Settings

def toJson (settings : Settings) : Json :=
  object [
    ("title", string settings.title),
    ("description", string settings.description),
    ("default_group", string settings.defaultGroup),
    ("excluded_groups", texts settings.excludedGroups),
    ("example_language", string settings.exampleLanguage),
    ("example_placeholder", string settings.examplePlaceholder)]

def keys : List String :=
  ["title", "description", "default_group", "excluded_groups", "example_language",
   "example_placeholder"]

def ofJson? (json : Json) : Option Settings := do
  match ← json.fields? keys with
  | [title, description, defaultGroup, excludedGroups, exampleLanguage, examplePlaceholder] =>
    return {
      title := ← fieldOr standard.title string? title
      description := ← fieldOr standard.description string? description
      defaultGroup := ← fieldOr standard.defaultGroup string? defaultGroup
      excludedGroups := ← fieldOr standard.excludedGroups (list? string?) excludedGroups
      exampleLanguage := ← fieldOr standard.exampleLanguage string? exampleLanguage
      examplePlaceholder := ← fieldOr standard.examplePlaceholder string? examplePlaceholder }
  | _ => none

end Settings

end CommandReference
