import CommandReference.Text.Blank
import CommandReference.Text.Part

/-! The lines of a registration source that carry documentation. Any blanks may stand at
the end of such a line. A line is taken as it is given, so it may hold a line feed;
texts that are captured from it have none, the name of a command excepted. -/
namespace CommandReference.Line
open Text

def allBlank (cs : List Char) : Bool := cs.all isBlank

def onOneLine (cs : List Char) : Bool := cs.all (· != '\n')

/-- `// GROUP: name` -/
def group? (line : List Char) : Option (List Char) := do
  let name := trim (← after? "// GROUP:" line)
  if name ≠ [] ∧ onOneLine name then some name else none

def quotedBy (quote : Char) (cs : List Char) : Option (List Char × List Char) :=
  match cs.dropWhile (· != quote) with
  | [] => none
  | _ :: rest => some (cs.takeWhile (· != quote), rest)

/-- The line with which a command begins: the registration call, the key `name`, the
quoted name of the command and a comma. -/
def command? (line : List Char) : Option (List Char) := do
  let start ← after? "SlashCommandParser.addCommandObject(SlashCommand.fromProps(\x7b" line
  match trimStart (← after? "name:" (trimStart start)) with
  | quote :: body =>
    if quote = '\'' ∨ quote = '"' then
      let (name, rest) ← quotedBy quote body
      let finish ← after? "," rest
      if name ≠ [] ∧ allBlank finish then some name else none
    else none
  | [] => none

def helpValue? (line : List Char) : Option (List Char) := do
  return trimStart (← after? "helpString:" (trimStart line))

/-- A help text on one line, quoted and with a comma after it. Between backticks it may
not be empty. -/
def help? (line : List Char) : Option (List Char) := do
  match ← helpValue? line with
  | quote :: body =>
    if quote = '\'' ∨ quote = '"' ∨ quote = '`' then
      let text ← before? (String.ofList [quote, ',']) (trimEnd body)
      if onOneLine text ∧ (quote = '`' → text ≠ []) then some text else none
    else none
  | [] => none

/-- The line with which a help text over several lines begins: a backtick at its end. -/
def opensHelp (line : List Char) : Bool :=
  match helpValue? line with
  | some ('`' :: rest) => allBlank rest
  | _ => false

/-- The last part of a help text over several lines: what stands before a backtick and
a comma at the end of the line. -/
def closesHelp? (line : List Char) : Option (List Char) := before? "`," (trimEnd line)

def indented (line : List Char) : Nat × List Char :=
  (byteSize (line.takeWhile isBlank), trimStart line)

/-- The line with which the declaration of an argument begins, given by the constructor's
name: its indentation and the text from the opening brace on. -/
def construction? (constructor : String) (line : List Char) : Option (Nat × List Char) := do
  let (indent, text) := indented line
  let body ← after? constructor text
  if startsWith "\x7b" body ∧ onOneLine body then some (indent, body) else none

def namedArgument? (line : List Char) : Option (Nat × List Char) :=
  construction? "SlashCommandNamedArgument.fromProps(" line

def unnamedArgument? (line : List Char) : Option (Nat × List Char) :=
  construction? "SlashCommandArgument.fromProps(" line

def closesArgument? (line : List Char) : Option Nat := do
  let (indent, text) := indented line
  if allBlank (← after? "\x7d)," text) then some indent else none

end CommandReference.Line
