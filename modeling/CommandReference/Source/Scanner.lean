import CommandReference.Command.OfLiteral
import CommandReference.Command.Registry
import CommandReference.Literal.Balance
import CommandReference.Literal.Reader.Value
import CommandReference.Source.Help
import CommandReference.Source.Line

/-! The scan of a registration source, line by line. At most one command is open. Group
markers and command starts are heeded in every state, so a block that is not ended is
given up when the next command starts. -/
namespace CommandReference
open Text

inductive SourceError where
  | literal (line : Nat) (command : String) (cause : Literal.Error)
  | field (line : Nat) (command : String) (cause : FieldError)
  deriving Repr, DecidableEq

def SourceError.message : SourceError → String
  | literal line command cause =>
    s!"line {line}: invalid argument literal in command '{command}': {cause.message}"
  | field line command cause =>
    s!"line {line}: invalid argument in command '{command}': {cause.message}"

inductive ScanState where
  | idle
  | opened (command : CommandRef)
  | inHelp (command : CommandRef) (text : List Char)
  /-- In a declaration that began at `indent` bytes, of which `raw` has been collected. -/
  | inArgument (command : CommandRef) (kind : ArgumentKind) (indent : Nat) (raw : List Char)
  deriving Repr, DecidableEq

structure Scanner where
  registry : Registry
  group : String
  state : ScanState
  deriving Repr, DecidableEq

/-- Work on a scanner. What was done to it before an error stays done. -/
abbrev Scan := ExceptT SourceError (StateM Scanner)

def Scan.on {α : Type} (work : Scan α) (scanner : Scanner) : Except SourceError α × Scanner :=
  StateT.run (ExceptT.run work) scanner

namespace Scanner

def defaultGroup : String := "Ungrouped"

def start (group : String) : Scanner := ⟨.empty, group, .idle⟩

def enterGroup (name : String) (scanner : Scanner) : Scanner :=
  { scanner with registry := scanner.registry.ensureGroup name, group := name }

def openCommand (name : String) (scanner : Scanner) : Scanner :=
  { scanner with
    registry := scanner.registry.push scanner.group (.ofName name)
    state := .opened (scanner.registry.nextRef scanner.group) }

def setHelp (command : CommandRef) (help : String) (scanner : Scanner) : Scanner :=
  { scanner with
    registry := scanner.registry.updateAt command fun found => { found with help := help } }

def addArgument (command : CommandRef) (kind : ArgumentKind) (argument : Argument)
    (scanner : Scanner) : Scanner :=
  { scanner with registry := scanner.registry.updateAt command (·.addArgument kind argument) }

def enter (state : ScanState) (scanner : Scanner) : Scanner := { scanner with state := state }

def declare (number : Nat) (command : CommandRef) (kind : ArgumentKind) (raw : List Char) :
    Scan ScanState := do
  let name := (((← get).registry.command? command).map (·.name)).getD ""
  let literal ← (Literal.parse (String.ofList raw)).mapError (SourceError.literal number name)
  let argument ← (Argument.ofLiteral literal).mapError (SourceError.field number name)
  modify (addArgument command kind argument)
  return .opened command

def argumentStart? (line : List Char) : Option (ArgumentKind × Nat × List Char) :=
  ((Line.namedArgument? line).map (.named, ·)).or
    ((Line.unnamedArgument? line).map (.unnamed, ·))

def advanceOpened (number : Nat) (line : List Char) (command : CommandRef) : Scan ScanState :=
  match Line.help? line with
  | some text => do
    modify (setHelp command (String.ofList text))
    return .idle
  | none =>
    if Line.opensHelp line then return .inHelp command []
    else
      match argumentStart? line with
      | none => return .opened command
      | some (kind, indent, body) =>
        match Literal.balancedBlock? body with
        | some block => declare number command kind block
        | none => return .inArgument command kind indent (body ++ ['\n'])

def advanceHelp (line : List Char) (command : CommandRef) (text : List Char) : Scan ScanState :=
  match Line.closesHelp? line with
  | some last => do
    modify (setHelp command (Help.normalize (String.ofList (text ++ last))))
    return .idle
  | none => return .inHelp command (text ++ line ++ ['\n'])

/-- A line in a declaration, which ends at a line that is not indented more than its
first. -/
def advanceArgument (number : Nat) (line : List Char) (command : CommandRef) (kind : ArgumentKind)
    (indent : Nat) (raw : List Char) : Scan ScanState :=
  if (Line.closesArgument? line).any (· ≤ indent) then
    declare number command kind (raw ++ ['}'])
  else return .inArgument command kind indent (raw ++ line ++ ['\n'])

def advanceState (number : Nat) (line : List Char) : ScanState → Scan ScanState
  | .idle => return .idle
  | .opened command => advanceOpened number line command
  | .inHelp command text => advanceHelp line command text
  | .inArgument command kind indent raw => advanceArgument number line command kind indent raw

/-- Takes out the state before it is known which one follows it, so a line at fault gives up the
block that it belongs to. -/
def takeState : Scan ScanState := modifyGet fun scanner => (scanner.state, scanner.enter .idle)

def advance (number : Nat) (line : List Char) : Scan Unit :=
  match Line.group? line with
  | some name => modify (enterGroup (String.ofList name))
  | none =>
    match Line.command? line with
    | some name => modify (openCommand (String.ofList name))
    | none => do
      let state ← takeState
      let next ← advanceState number line state
      modify (enter next)

/-- Takes in a line. The scan can go on after one that is at fault. -/
def feed (scanner : Scanner) (number : Nat) (line : List Char) : Scanner × Option SourceError :=
  match (advance number line).on scanner with
  | (.ok _, next) => (next, none)
  | (.error error, next) => (next, some error)

/-- Ends the scan. A help text that is still open is closed; a declaration is dropped. -/
def finish (scanner : Scanner) : Registry :=
  match scanner.state with
  | .inHelp command text =>
    (scanner.setHelp command (Help.normalize (String.ofList text))).registry
  | _ => scanner.registry

def scan (scanner : Scanner) (source : String) : Except SourceError Registry :=
  match (((lines source.toList).zipIdx 1).forM fun item => advance item.2 item.1).on scanner with
  | (.ok _, final) => .ok final.finish
  | (.error error, _) => .error error

end Scanner

/-- The registry that a source declares; commands before any group marker belong to the
given group. -/
def Registry.ofSource (group : String) (source : String) : Except SourceError Registry :=
  (Scanner.start group).scan source

end CommandReference
