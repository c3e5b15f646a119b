import CommandReference.Document.Recover
import CommandReference.Document.Render
import CommandReference.Project.Files
import CommandReference.Settings.Reader

/-! The regeneration of a document from a source. The source is read to its end before
anything is written, and the old document is copied before it is replaced. -/
namespace CommandReference

inductive Failure where
  | file (path : String) (cause : FileError)
  | source (cause : SourceError)
  | unknownCommand (cause : UnknownCommand)
  | settings (cause : SettingsError)
  | yaml
  deriving Repr, DecidableEq

def Failure.message : Failure → String
  | file path cause => s!"I/O error on {path}: {cause.message}"
  | source cause => s!"extraction failed: {cause.message}"
  | unknownCommand cause => cause.message
  | settings cause => s!"invalid configuration: {cause.message}"
  | yaml => "YAML error: no settings can be read"

structure Project where
  source : String
  document : String
  backup : String
  settings : Settings
  deriving Repr, DecidableEq

structure Outcome where
  recovered : Recovered
  document : String
  changed : Bool
  deriving Repr, DecidableEq

def sourceName : String := "index.js"

def documentName : String := "README.md"

def backupName : String := "README.bak.md"

def settingsName : String := "slashdoc.yml"

variable {m : Type → Type} [Monad m] [Files m]

def onPath {α : Type} (path : String) (operation : m (Except FileError α)) :
    ExceptT Failure m α :=
  ExceptT.mk do return (← operation).mapError (.file path)

def readText (path : String) : ExceptT Failure m String := do
  let bytes ← onPath path (Files.read path)
  match String.fromUTF8? bytes with
  | some text => return text
  | none => throw (.file path .notText)

namespace Settings

/-- Settings from a file. A directory can be opened but holds no YAML. -/
def load (path : String) : ExceptT Failure m Settings := do
  match ← (Files.read path : m _) with
  | .error error => throw (if error = .isDirectory then .yaml else .file path error)
  | .ok bytes =>
    match (String.fromUTF8? bytes).bind ofYaml? with
    | none => throw .yaml
    | some settings =>
      match settings.validate with
      | .ok settings => return settings
      | .error error => throw (.settings error)

def loadOrStandard (path : String) : ExceptT Failure m Settings := do
  if ← (Files.isPresent path : m Bool) then load path else return standard

end Settings

namespace Project

def inDirectory (root : String) (settings : Settings) : Project where
  source := pathIn root sourceName
  document := pathIn root documentName
  backup := pathIn root backupName
  settings := settings

def extract (path : String) (settings : Settings) : ExceptT Failure m Registry := do
  let text ← readText path
  match Registry.ofSource settings.defaultGroup text with
  | .ok registry => return registry
  | .error error => throw (.source error)

def outcomeOver (settings : Settings) (registry : Registry) (old : String) :
    Except Failure Outcome :=
  match Document.recover settings registry old with
  | .error (error, _) => .error (.unknownCommand error)
  | .ok recovered =>
    let document := Document.render settings recovered.requirements recovered.registry
    .ok ⟨recovered, document, document ≠ old⟩

def renderOver (project : Project) (registry : Registry) : ExceptT Failure m Outcome := do
  let old ← readText project.document
  ExceptT.mk (pure (outcomeOver project.settings registry old))

def preview (project : Project) : ExceptT Failure m Outcome := do
  project.renderOver (← extract project.source project.settings)

def regenerate (project : Project) : ExceptT Failure m Outcome := do
  let registry ← extract project.source project.settings
  onPath project.document (Files.copy project.document project.backup)
  let outcome ← project.renderOver registry
  onPath project.document (Files.write project.document outcome.document.toUTF8)
  return outcome

end Project

end CommandReference
