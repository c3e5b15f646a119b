import CommandReference.Project.CommandLine

/-! A listing of the commands that a source declares, without settings or document. -/
namespace CommandReference.Listing
open CommandLine (Report)

def padded (width : Nat) (text : String) : String :=
  text ++ String.ofList (List.replicate (width - text.length) ' ')

def commandLine (command : Command) : String :=
  s!"  /{padded 20 command.name} {command.named.length} named, {command.unnamed.length} unnamed\n"

def groupLines (group : Group) : String :=
  joined "" ((group.name ++ "\n") :: group.commands.map commandLine)

def listing (registry : Registry) : String := joined "" (registry.groups.map groupLines)

variable {m : Type → Type} [Monad m] [Files m]

def run (arguments : List String) : m Report := do
  match arguments with
  | [] => return ⟨2, "", "usage: list_commands <source.js>\n"⟩
  | path :: _ =>
    match ← (readText path).run with
    | .error (.file _ cause) => return .failure s!"cannot read {path}: {cause.message}"
    | .error failure => return .failure failure.message
    | .ok text =>
      match Registry.ofSource Scanner.defaultGroup text with
      | .ok registry => return .success (listing registry)
      | .error error => return .failure error.message

end CommandReference.Listing
