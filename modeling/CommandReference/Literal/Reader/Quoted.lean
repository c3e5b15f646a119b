import CommandReference.Literal.Reader.Trivia
import CommandReference.Text.Digit

/-! Quoted strings and template strings. Escapes are resolved in a quoted string. Of a
template string only the end is looked for, past escapes and interpolations, which
may hold strings of either sort. -/
namespace CommandReference.Literal.Reader
open Text

def hexNumber? (written : List Char) : Option Nat :=
  match written with
  | '+' :: digits => digits? 16 digits
  | digits => digits? 16 digits

def charOfHex? (digits : List Char) : Option Char := do
  let code ← hexNumber? digits
  if code.isValidChar then some (Char.ofNat code) else none

/-- The digits of a Unicode escape: up to four characters, or any number in braces. -/
def unicodeDigits : (s : List Char) → Except Failure (List Char × Rest s)
  | '{' :: body =>
    match (Rest.pastWhile (· != '}') body).uncons? with
    | none => throw ⟨.unterminatedUnicodeEscape, body⟩
    | some (_, r) => return (body.takeWhile (· != '}'), (r.behind '{').weaken)
  | s => return (s.take 4, Rest.drop 4 s)

def unicodeEscape (s : List Char) : Except Failure (Char × Rest s) := do
  let (digits, rest) ← unicodeDigits s
  match charOfHex? digits with
  | some c => return (c, rest)
  | none => throw ⟨.invalidUnicodeEscape (String.ofList digits), rest.1⟩

def escaped : Char → Char
  | 'n' => '\n'
  | 't' => '\t'
  | 'r' => '\r'
  | '0' => '\x00'
  | c => c

/-- Reads the rest of a quoted string up to its closing quote; `opening` is the text
from the opening quote on. An escaped line feed stands for nothing. -/
def quoted (opening : List Char) (quote : Char) (s : List Char) :
    Except Failure (List Char × ProperRest s) :=
  match s with
  | [] => throw ⟨.unterminatedString, opening⟩
  | '\n' :: _ => throw ⟨.unterminatedString, opening⟩
  | ['\\'] => throw ⟨.unterminatedEscape, []⟩
  | '\\' :: 'u' :: r => do
    let (c, t) ← unicodeEscape r
    let (text, rest) ← quoted opening quote t.1
    return (c :: text, ((t.andProper rest).behind 'u').behind '\\')
  | '\\' :: '\n' :: r => do
    let (text, rest) ← quoted opening quote r
    return (text, (rest.behind '\n').behind '\\')
  | '\\' :: c :: r => do
    let (text, rest) ← quoted opening quote r
    return (escaped c :: text, (rest.behind c).behind '\\')
  | c :: r => do
    if c = quote then return ([], ProperRest.tail c r)
    let (text, rest) ← quoted opening quote r
    return (c :: text, rest.behind c)
termination_by s.length
decreasing_by
  · exact ((t.behind 'u').behind '\\').length_lt
  all_goals simp only [List.length_cons]; omega

mutual

/-- Reads the rest of a template string up to its closing backtick and tells whether
it interpolates; `opening` is the text from the opening backtick on. -/
def template (opening : List Char) (s : List Char) : Except Failure (Bool × ProperRest s) :=
  match s with
  | [] => throw ⟨.unterminatedTemplate, opening⟩
  | '`' :: r => return (false, ProperRest.tail '`' r)
  | ['\\'] => throw ⟨.unterminatedTemplate, opening⟩
  | '\\' :: c :: r => do
    let (interpolated, rest) ← template opening r
    return (interpolated, (rest.behind c).behind '\\')
  | '$' :: '{' :: r => do
    let t ← interpolation 0 r
    let (_, rest) ← template opening t.1
    return (true, ((t.andProper rest).behind '{').behind '$')
  | c :: r => do
    let (interpolated, rest) ← template opening r
    return (interpolated, rest.behind c)
termination_by s.length
decreasing_by
  · simp only [List.length_cons]; omega
  · simp only [List.length_cons]; omega
  · exact ((t.behind '{').behind '$').length_lt
  · exact Nat.lt_succ_self _

def interpolation (depth : Nat) (s : List Char) : Except Failure (ProperRest s) :=
  match s with
  | [] => throw ⟨.unterminatedInterpolation, []⟩
  | c :: r => do
    if c = '\'' ∨ c = '"' then
      let (_, t) ← quoted (c :: r) c r
      let rest ← interpolation depth t.1
      return (t.andProper rest).behind c
    else if c = '`' then
      let (_, t) ← template (c :: r) r
      let rest ← interpolation depth t.1
      return (t.andProper rest).behind c
    else if c = '{' then
      let rest ← interpolation (depth + 1) r
      return rest.behind c
    else if c = '}' then
      match depth with
      | 0 => return ProperRest.tail c r
      | outer + 1 =>
        let rest ← interpolation outer r
        return rest.behind c
    else
      let rest ← interpolation depth r
      return rest.behind c
termination_by s.length
decreasing_by
  · exact (t.behind c).length_lt
  · exact Nat.lt_succ_self _
  · exact (t.behind c).length_lt
  all_goals exact Nat.lt_succ_self _

end

end CommandReference.Literal.Reader
