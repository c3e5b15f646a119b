import CommandReference.Command.Dump
import CommandReference.Project.Regenerate

/-! The command line. Options are read from left to right: the first fault refuses the
line, and a request for the version or for help that comes before it is answered. -/
namespace CommandReference.CommandLine

inductive Mode where
  | write
  | check
  | print
  | dump (format : DumpFormat)
  deriving Repr, DecidableEq

structure Options where
  root : String
  source : Option String
  document : Option String
  backup : Option String
  settings : Option String
  mode : Mode
  deriving Repr, DecidableEq

inductive Request where
  | run (options : Options)
  | version
  | help
  | misuse
  deriving Repr, DecidableEq

/-- Options that take a value. -/
inductive Valued where
  | root | source | document | backup | settings | dump
  deriving Repr, DecidableEq

structure Given where
  values : List (Valued × String)
  check : Bool
  print : Bool
  deriving Repr, DecidableEq

def valuedOptions : List (String × Valued) :=
  [("root", .root), ("source", .source), ("readme", .document), ("backup", .backup),
   ("config", .settings), ("dump", .dump)]

def dumpFormat? : String → Option DumpFormat
  | "json" => some .json
  | "yaml" => some .yaml
  | _ => none

/-- A value may not be empty, and an option may be given once. -/
def Given.set? (option : Valued) (value : String) (given : Given) : Option Given :=
  if value = "" || (given.values.lookup option).isSome then none
  else if option = .dump && (dumpFormat? value).isNone then none
  else some { given with values := given.values ++ [(option, value)] }

def Given.request (given : Given) : Request :=
  let dump := (given.values.lookup .dump).bind dumpFormat?
  let mode? := match given.check, given.print, dump with
    | false, false, none => some Mode.write
    | true, false, none => some .check
    | false, true, none => some .print
    | false, false, some format => some (.dump format)
    | _, _, _ => none
  match mode? with
  | none => .misuse
  | some mode => .run {
      root := (given.values.lookup .root).getD "."
      source := given.values.lookup .source
      document := given.values.lookup .document
      backup := given.values.lookup .backup
      settings := given.values.lookup .settings
      mode }

/-- Letters after a single dash. `none` if all of them only raise the verbosity. -/
def letters : List Char → Option Request
  | [] => none
  | 'v' :: later => letters later
  | 'V' :: _ => some .version
  | 'h' :: _ => some .help
  | _ => some .misuse

def splitOption (text : List Char) : String × Option String :=
  (String.ofList (text.takeWhile (· != '=')),
    match text.dropWhile (· != '=') with
    | [] => none
    | _ :: value => some (String.ofList value))

/-- Reads arguments; `pending` is an option whose value is the next one. After a double
dash no option follows, and no other argument is taken. -/
def read (given : Given) (pending : Option Valued) : List String → Request
  | [] => if pending.isSome then .misuse else given.request
  | argument :: later =>
    match pending, argument.toList with
    | some option, cs =>
      if cs.head? = some '-' && cs ≠ ['-'] then .misuse
      else
        match given.set? option argument with
        | some given => read given none later
        | none => .misuse
    | none, ['-', '-'] => if later = [] then given.request else .misuse
    | none, '-' :: '-' :: text =>
      match splitOption text with
      | ("version", none) => .version
      | ("help", none) => .help
      | ("verbose", none) => read given none later
      | ("check", none) =>
        if given.check then .misuse else read { given with check := true } none later
      | ("stdout", none) =>
        if given.print then .misuse else read { given with print := true } none later
      | (name, value?) =>
        match valuedOptions.lookup name, value? with
        | some option, none => read given (some option) later
        | some option, some value =>
          match given.set? option value with
          | some given => read given none later
          | none => .misuse
        | none, _ => .misuse
    | none, '-' :: letter :: others =>
      match letters (letter :: others) with
      | some request => request
      | none => read given none later
    | none, _ => .misuse

def parse (arguments : List String) : Request := read ⟨[], false, false⟩ none arguments

structure Report where
  code : UInt32
  output : String
  errors : String
  deriving Repr, DecidableEq

def Report.success (output : String) : Report := ⟨0, output, ""⟩

def Report.failure (message : String) : Report := ⟨1, "", s!"error: {message}\n"⟩

variable {m : Type → Type} [Monad m] [Files m]

def Options.project (options : Options) : ExceptT Failure m Project := do
  let settings ← match options.settings with
    | some path => Settings.load path
    | none => Settings.loadOrStandard (pathIn options.root settingsName)
  let usual := Project.inDirectory options.root settings
  return {
    source := options.source.getD usual.source
    document := options.document.getD usual.document
    backup := options.backup.getD usual.backup
    settings }

def summary (project : Project) (outcome : Outcome) : String :=
  let registry := outcome.recovered.registry
  s!"Wrote '{project.document}': {registry.commandCount} command(s) in " ++
  s!"{registry.groups.length} group(s), {outcome.recovered.examples} example(s) kept. " ++
  s!"Backup at '{project.backup}'.\n"

def Options.run (options : Options) : ExceptT Failure m Report := do
  let project ← options.project
  match options.mode with
  | .write => return .success (summary project (← project.regenerate))
  | .check =>
    if (← project.preview).changed then
      return .failure s!"'{project.document}' is out of date; run slashdoc to regenerate it"
    else return .success s!"'{project.document}' is up to date.\n"
  | .print => return .success (← project.preview).document
  | .dump format => return .success ((← project.preview).recovered.registry.dump format)

def usage : String :=
  "Usage: slashdoc [--root DIR] [--source PATH] [--readme PATH] [--backup PATH]\n" ++
  "                [--config PATH] [--check | --stdout | --dump json|yaml] [-v]...\n"

def run (arguments : List String) : m Report := do
  match parse arguments with
  | .version => return .success "slashdoc 0.1.0\n"
  | .help => return .success usage
  | .misuse => return ⟨2, "", usage⟩
  | .run options =>
    match ← options.run.run with
    | .ok report => return report
    | .error failure => return .failure failure.message

end CommandReference.CommandLine
