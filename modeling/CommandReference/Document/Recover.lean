import CommandReference.Settings.Basic

/-! What a document of an earlier run holds beyond the registry: the requirements, and
for each command its examples and its usage line. The document is read line by line.
The requirements run from their heading to the next heading of the same level; all
else is the outline, in which headings name groups and commands. -/
namespace CommandReference
open Text

structure UnknownCommand where
  group : String
  command : String
  deriving Repr, DecidableEq

def UnknownCommand.message (error : UnknownCommand) : String :=
  s!"document references unknown command '/{error.command}' in group '{error.group}'"

structure Recovered where
  registry : Registry
  requirements : String
  examples : Nat
  commands : Nat
  deriving Repr, DecidableEq

namespace Outline

structure Cursor where
  group : String
  command : String
  /-- Whether no line other than blank ones has followed the heading. -/
  awaitsUsage : Bool
  /-- Whether the help text may still go on, which may hold headings of its own. -/
  inHelp : Bool
  deriving Repr, DecidableEq

structure State where
  registry : Registry
  group : Option String
  cursor : Option Cursor
  /-- The lines of the example whose fence is open. -/
  fence : Option (List Char)
  examples : Nat
  commands : Nat
  deriving Repr, DecidableEq

/-- An example goes to the command under whose heading the reading stands. If there is none, or
the registry does not have it, the example is dropped. -/
def State.keepExample (body : List Char) (state : State) : State :=
  match state.cursor with
  | none => state
  | some cursor =>
    if (state.registry.find? cursor.group cursor.command).isSome then
      { state with
        registry := state.registry.update cursor.group cursor.command
          (·.addExample (String.ofList body))
        examples := state.examples + 1 }
    else state

def State.endHelp (state : State) : State :=
  { state with
    cursor := state.cursor.map fun cursor =>
      { cursor with awaitsUsage := false, inHelp := false } }

def State.toggleFence (state : State) : State :=
  match state.fence with
  | none => { state with fence := some [] }.endHelp
  | some body => ({ state with fence := none }.keepExample body).endHelp

/-- The text between the first two backticks. Without a second backtick it goes up to
the end. -/
def commandToken? (heading : List Char) : Option (List Char) :=
  match heading.dropWhile (· != '`') with
  | [] => none
  | _ :: rest => some (rest.takeWhile (· != '`'))

/-- A command heading. Outside all groups, or without a token, it names no command. In any case
it leaves the command before it. -/
def State.openCommand (state : State) (heading : List Char) :
    Except (UnknownCommand × State) State :=
  let left := { state with cursor := none }
  match state.group, commandToken? heading with
  | some group, some token =>
    let name := String.ofList ((after? "/" token).getD token)
    if (state.registry.find? group name).isSome then
      return { left with
        cursor := some ⟨group, name, true, true⟩
        commands := state.commands + 1 }
    else throw (⟨group, name⟩, left)
  | _, _ => return left

/-- Whether a line in a help text is a heading of the outline all the same: one that names
a group of the registry, or has the form of a command heading. -/
def isHeading (registry : Registry) (line : List Char) : Bool :=
  match after? "### " line with
  | some group => (registry.group? (String.ofList (trim group))).isSome
  | none =>
    match after? "#### " line with
    | some heading =>
      let token := trim heading
      2 < byteSize token && startsWith "`/" token && (before? "`" token).isSome
    | none => false

/-- The first line after a command heading that is not blank may be a usage line, which
begins with a single backtick. -/
def State.readUsage (state : State) (cursor : Cursor) (line : List Char) : State :=
  if cursor.awaitsUsage ∧ trim line ≠ [] then
    let read := { state with cursor := some { cursor with awaitsUsage := false } }
    if startsWith "`" line ∧ ¬ startsWith "``" line then
      { read with
        registry := state.registry.update cursor.group cursor.command
          fun command => { command with usage := some (String.ofList line) } }
    else read
  else state

def State.readProse (state : State) (line : List Char) : State :=
  match state.cursor with
  | none => state
  | some cursor =>
    let cursor := { cursor with inHelp := cursor.inHelp && !startsWith "##### " line }
    State.readUsage { state with cursor := some cursor } cursor line

def State.readText (state : State) (line : List Char) : Except (UnknownCommand × State) State :=
  if state.cursor.any (·.inHelp) && !isHeading state.registry line then
    return state.readProse line
  else
    match after? "### " line, after? "#### " line with
    | some group, _ =>
      return { state with group := some (String.ofList (trim group)), cursor := none }
    | none, some heading => state.openCommand heading
    | none, none => return state.readProse line

/-- A line of the outline, given also with its line ending. An error comes with the state that
was reached. -/
def State.read (settings : Settings) (state : State) (line raw : List Char) :
    Except (UnknownCommand × State) State :=
  if state.cursor.isSome && settings.isFence line then return state.toggleFence
  else
    match state.cursor, state.fence with
    | some _, some body => return { state with fence := some (body ++ raw) }
    | _, _ => state.readText line

end Outline

namespace Document

inductive Region where
  | preamble
  | requirements
  | body
  deriving Repr, DecidableEq

structure Reading where
  region : Region
  requirements : List Char
  outline : Outline.State
  deriving Repr, DecidableEq

def contentOf (raw : List Char) : List Char := dropEndWhile (fun c => c = '\n' || c = '\r') raw

def Reading.readOutline (settings : Settings) (reading : Reading) (raw : List Char) :
    Except (UnknownCommand × Reading) Reading :=
  match reading.outline.read settings (contentOf raw) raw with
  | .ok outline => return { reading with outline }
  | .error (cause, outline) => throw (cause, { reading with outline })

def Reading.read (settings : Settings) (reading : Reading) (raw : List Char) :
    Except (UnknownCommand × Reading) Reading :=
  match reading.region with
  | .preamble =>
    if startsWith "## Requirements" (contentOf raw) then
      return { reading with region := .requirements }
    else reading.readOutline settings raw
  | .requirements =>
    if startsWith "## " (contentOf raw) then return { reading with region := .body }
    else if trim (contentOf raw) = [] then return reading
    else return { reading with requirements := reading.requirements ++ raw }
  | .body => reading.readOutline settings raw

def Reading.start (registry : Registry) : Reading :=
  ⟨.preamble, [], ⟨registry, none, none, none, 0, 0⟩⟩

def Reading.finish (reading : Reading) : Recovered :=
  { registry := reading.outline.registry
    requirements := String.ofList reading.requirements
    examples := reading.outline.examples
    commands := reading.outline.commands }

/-- Reads a document. If it names a command that the registry does not have, the registry as it
is then is given back with the error. An example that is not ended is dropped. -/
def recover (settings : Settings) (registry : Registry) (document : String) :
    Except (UnknownCommand × Registry) Recovered := do
  let final ← (rawLines document.toList).foldlM
    (fun reading raw => (reading.read settings raw).mapError fun failed =>
      (failed.1, failed.2.outline.registry))
    (Reading.start registry)
  return final.finish

end Document

end CommandReference
