import CommandReference.Literal.Reader.Value
import CommandReference.Proofs.Text.Bytes

/-! Reading a literal along a text that stays whole, by a position in bytes. Nothing holds the
position to the boundaries between characters: it is moved on by computed lengths and set back to
places that were noted, and a cut at any other place has no outcome. Nor does anything make the loops
end, so each of them is given the number of rounds that it may go on for. -/
namespace CommandReference.Literal

/-- From a position a walk comes to a result and another position, or to an error. It has no outcome
if it cuts the text where there is no boundary, or has not ended when its rounds are over. -/
abbrev Walk (α : Type) := StateT Nat (ExceptT Error Option) α

namespace Walk
open Text Reader

def outcome {α : Type} (work : Walk α) (position : Nat) : Option (Except Error (α × Nat)) :=
  ExceptT.run (StateT.run work position)

def refuse {α : Type} (problem : Problem) : Walk α := do
  throw (⟨problem, ← get⟩ : Error)

def stuck {α : Type} : Walk α := liftM (none : Option α)

variable (text : List Char)

def rest : Walk (List Char) := do restAt? text (← get)

def cut (start stop : Nat) : Walk (List Char) := do slice? text start stop

def peek : Walk (Option Char) := return (← rest text).head?

def bump : Walk (Option Char) := do
  match ← peek text with
  | none => return none
  | some c =>
    modify (· + c.utf8Size)
    return some c

def passTrivia : Nat → Walk Unit
  | 0 => stuck
  | rounds + 1 => do
    let rest ← rest text
    let trimmed := trimStart rest
    modify (· + (byteSize rest - byteSize trimmed))
    if startsWith "//" trimmed then
      modify (· + (byteIndexOf? '\n' trimmed).getD (byteSize trimmed))
      passTrivia rounds
    else if startsWith "/*" trimmed then
      let body ← restAt? trimmed 2
      match byteIndex? "*/" body with
      | none => refuse .unterminatedComment
      | some stop =>
        modify (· + (stop + 4))
        passTrivia rounds
    else return ()

def passChar (rounds : Nat) (wanted : Char) : Walk Unit := do
  passTrivia text rounds
  match ← peek text with
  | none => refuse (.expected wanted none)
  | some c =>
    if c = wanted then
      let _ ← bump text
      return ()
    else refuse (.expected wanted (some c))

/-- A comma is passed over, and the closing bracket left. -/
def passSeparator (rounds : Nat) (close : Char) (atEnd : Problem) : Walk Unit := do
  passTrivia text rounds
  match ← peek text with
  | none => refuse atEnd
  | some c =>
    if c = ',' then
      let _ ← bump text
      return ()
    else if c = close then return ()
    else refuse (.expectedSeparator close c)

def passWhile (p : Char → Bool) : Nat → Walk Unit
  | 0 => stuck
  | rounds + 1 => do
    let next ← peek text
    if next.any p then
      let _ ← bump text
      passWhile p rounds
    else return ()

def readDigits : Walk (List Char) := do
  let next ← peek text
  if next = some '{' then
    let _ ← bump text
    let body ← rest text
    match byteIndexOf? '}' body with
    | none => refuse .unterminatedUnicodeEscape
    | some size =>
      let digits ← slice? body 0 size
      modify (· + (size + 1))
      return digits
  else
    let rest ← rest text
    let digits := rest.take 4
    modify (· + byteSize digits)
    return digits

def readEscape : Walk Char := do
  let digits ← readDigits text
  match charOfHex? digits with
  | some c => return c
  | none => refuse (.invalidUnicodeEscape (String.ofList digits))

/-- Passes over an opening quote, and notes where it stands and what follows it. -/
def openQuote : Walk (Nat × Nat) := do
  let start ← get
  let _ ← bump text
  let body ← get
  return (start, body)

def readStringFrom (start : Nat) (quote : Char) : Nat → List Char → Walk (List Char)
  | 0, _ => stuck
  | rounds + 1, out => do
    match ← bump text with
    | none =>
      set start
      refuse .unterminatedString
    | some c =>
      if c = '\n' then
        set start
        refuse .unterminatedString
      else if c = '\\' then
        match ← bump text with
        | none => refuse .unterminatedEscape
        | some c =>
          if c = 'u' then
            let meant ← readEscape text
            readStringFrom start quote rounds (out ++ [meant])
          else if c = '\n' then readStringFrom start quote rounds out
          else readStringFrom start quote rounds (out ++ [escaped c])
      else if c = quote then return out
      else readStringFrom start quote rounds (out ++ [c])

def readString (rounds : Nat) (quote : Char) : Walk (List Char) := do
  let (start, _) ← openQuote text
  readStringFrom text start quote rounds []

mutual

def readTemplateFrom : Nat → Nat → Nat → Bool → Walk Literal
  | 0, _, _, _ => stuck
  | rounds + 1, start, body, interpolated => do
    match ← bump text with
    | none =>
      set start
      refuse .unterminatedTemplate
    | some c =>
      if c = '\\' then
        let _ ← bump text
        readTemplateFrom rounds start body interpolated
      else if c = '`' then
        let stop ← get
        let raw ← cut text body (stop - 1)
        return .template (String.ofList raw) interpolated
      else if c = '$' then
        let next ← peek text
        if next = some '{' then
          let _ ← bump text
          passInterpolation rounds 1
          readTemplateFrom rounds start body true
        else readTemplateFrom rounds start body interpolated
      else readTemplateFrom rounds start body interpolated

def passInterpolation : Nat → Nat → Walk Unit
  | 0, _ => stuck
  | _ + 1, 0 => return ()
  | rounds + 1, depth + 1 => do
    match ← peek text with
    | none => refuse .unterminatedInterpolation
    | some c =>
      if c = '\'' ∨ c = '"' then
        let _ ← readString text rounds c
        passInterpolation rounds (depth + 1)
      else if c = '`' then
        let (start, body) ← openQuote text
        let _ ← readTemplateFrom rounds start body false
        passInterpolation rounds (depth + 1)
      else if c = '{' then
        let _ ← bump text
        passInterpolation rounds (depth + 2)
      else if c = '}' then
        let _ ← bump text
        passInterpolation rounds depth
      else
        let _ ← bump text
        passInterpolation rounds (depth + 1)

end

def readTemplate (rounds : Nat) : Walk Literal := do
  let (start, body) ← openQuote text
  readTemplateFrom text rounds start body false

def passSign : Walk Unit := do
  let next ← peek text
  if next = some '-' ∨ next = some '+' then
    let _ ← bump text
    return ()
  else return ()

def readNumber (rounds : Nat) : Walk Literal := do
  let start ← get
  passSign text
  passWhile text isNumberPart rounds
  let stop ← get
  let written ← cut text start stop
  if written.any isDigit then return .number (String.ofList written)
  else
    set start
    refuse .invalidNumber

def readName (rounds : Nat) : Walk (List Char) := do
  let start ← get
  passWhile text isIdentifierPart rounds
  let stop ← get
  cut text start stop

def readSegments : Nat → List Char → Walk (List Char)
  | 0, _ => stuck
  | rounds + 1, name => do
    let next ← peek text
    if next = some '.' then
      let _ ← bump text
      let segment ← readName text rounds
      if segment = [] then refuse .expectedIdentifierAfterDot
      else readSegments rounds (name ++ '.' :: segment)
    else return name

def readPath (rounds : Nat) : Walk (List Char) := do
  let name ← readName text rounds
  if name = [] then refuse .expectedIdentifier else readSegments text rounds name

def readKey (rounds : Nat) (c : Char) : Walk (List Char) :=
  if c = '\'' ∨ c = '"' then readString text rounds c
  else if isIdentifierStart c then readName text rounds
  else refuse (.expectedKey c)

def passFunctionFrom : Nat → Nat → Walk Literal
  | 0, _ => stuck
  | rounds + 1, depth => do
    match ← peek text with
    | none => if depth = 0 then return .callback else refuse .unterminatedCallback
    | some c =>
      if c = '\'' ∨ c = '"' then
        let _ ← readString text rounds c
        passFunctionFrom rounds depth
      else if c = '`' then
        let _ ← readTemplate text rounds
        passFunctionFrom rounds depth
      else
        let rest ← rest text
        if startsWith "//" rest ∨ startsWith "/*" rest then
          passTrivia text rounds
          passFunctionFrom rounds depth
        else if opensBracket c then
          let _ ← bump text
          passFunctionFrom rounds (depth + 1)
        else if closesBracket c then
          if depth = 0 then return .callback
          else
            let _ ← bump text
            passFunctionFrom rounds (depth - 1)
        else if c = ',' ∧ depth = 0 then return .callback
        else
          let _ ← bump text
          passFunctionFrom rounds depth

/-- A function is passed over from its start, wherever the walk has come by then. -/
def passFunction (rounds start : Nat) : Walk Literal := do
  set start
  passFunctionFrom text rounds 0

mutual

def readValue : Nat → Walk Literal
  | 0 => stuck
  | rounds + 1 => do
    passTrivia text rounds
    match ← peek text with
    | none => refuse .missingValue
    | some c =>
      if c = '{' then
        passChar text rounds '{'
        readFields rounds []
      else if c = '[' then
        passChar text rounds '['
        let items ← readItems rounds ']' []
        return .array items
      else if c = '\'' ∨ c = '"' then
        let content ← readString text rounds c
        return .string (String.ofList content)
      else if c = '`' then readTemplate text rounds
      else if c = '(' then
        let start ← get
        passFunction text rounds start
      else if c = '-' ∨ c = '+' ∨ isDigit c then readNumber text rounds
      else if isIdentifierStart c then readWord rounds
      else refuse (.unexpected c)

def readFields : Nat → List (String × Literal) → Walk Literal
  | 0, _ => stuck
  | rounds + 1, entries => do
    passTrivia text rounds
    match ← peek text with
    | none => refuse .unterminatedObject
    | some c =>
      if c = '}' then
        let _ ← bump text
        return .object entries
      else
        let name ← readKey text rounds c
        passChar text rounds ':'
        let content ← readValue rounds
        passSeparator text rounds '}' .unterminatedObject
        readFields rounds (entries ++ [(String.ofList name, content)])

def readItems : Nat → Char → List Literal → Walk (List Literal)
  | 0, _, _ => stuck
  | rounds + 1, close, items => do
    passTrivia text rounds
    let next ← peek text
    if next = some close then
      let _ ← bump text
      return items
    else
      let item ← readValue rounds
      passSeparator text rounds close (.expected close none)
      readItems rounds close (items ++ [item])

def readWord : Nat → Walk Literal
  | 0 => stuck
  | rounds + 1 => do
    let start ← get
    let path ← readPath text rounds
    let name := String.ofList path
    if name = "true" then return .bool true
    else if name = "false" then return .bool false
    else if name = "null" ∨ name = "undefined" then return .null
    else if name = "async" ∨ name = "function" then passFunction text rounds start
    else if name = "new" then
      passTrivia text rounds
      let callee ← readPath text rounds
      passChar text rounds '('
      let items ← readItems rounds ')' []
      return .call (String.ofList callee) items
    else
      let after ← get
      passTrivia text rounds
      let rest ← rest text
      if startsWith "=>" rest then passFunction text rounds start
      else
        let next ← peek text
        if next = some '(' then
          let _ ← bump text
          let items ← readItems rounds ')' []
          return .call name items
        else
          set after
          return .path name

end

def readLiteral (rounds : Nat) : Walk Literal := do
  let literal ← readValue text rounds
  passTrivia text rounds
  let stop ← get
  if stop < byteSize text then refuse .trailingInput else return literal

end Walk

end CommandReference.Literal
