import CommandReference.Source.Scanner

/-! Settings of a document: its title and description, which groups the index leaves
out, and how code examples are fenced. -/
namespace CommandReference
open Text

structure Settings where
  title : String
  description : String
  defaultGroup : String
  excludedGroups : List String
  exampleLanguage : String
  examplePlaceholder : String
  deriving Repr, DecidableEq, Inhabited

inductive SettingsError where
  | languageNotOneWord (language : String)
  | placeholderHoldsFence
  | emptyDefaultGroup
  deriving Repr, DecidableEq

def SettingsError.message : SettingsError → String
  | languageNotOneWord language =>
    s!"example_language '{language}' must not contain whitespace or backticks"
  | placeholderHoldsFence => "example_placeholder must not contain a code fence"
  | emptyDefaultGroup => "default_group must not be empty"

namespace Settings

def standard : Settings where
  title := "LALib"
  description := "Library of STScript commands."
  defaultGroup := Scanner.defaultGroup
  excludedGroups := ["Help", "Undocumented"]
  exampleLanguage := "stscript"
  examplePlaceholder := "some code here"

def fence : String := "```"

def fault? (settings : Settings) : Option SettingsError :=
  if settings.exampleLanguage.toList.any (fun c => isBlank c || c = '`') then
    some (.languageNotOneWord settings.exampleLanguage)
  else if (lines settings.examplePlaceholder.toList).any (startsWith fence) then
    some .placeholderHoldsFence
  else if trim settings.defaultGroup.toList = [] then some .emptyDefaultGroup
  else none

def validate (settings : Settings) : Except SettingsError Settings :=
  match settings.fault? with
  | some error => .error error
  | none => .ok settings

def isExcluded (settings : Settings) (group : String) : Bool :=
  settings.excludedGroups.contains group

/-- Whether a line opens or closes a code example: a fence alone or with the language. -/
def isFence (settings : Settings) (line : List Char) : Bool :=
  match after? fence line with
  | some tag => tag = [] || tag = settings.exampleLanguage.toList
  | none => false

end Settings

end CommandReference
