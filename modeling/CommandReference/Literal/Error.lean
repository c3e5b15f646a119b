/-! Why a text is no literal. While a text is being read, a failure is placed by the
text that was left at that point; the finished error gives the same place as an
offset in bytes from the start. -/
namespace CommandReference.Literal

inductive Problem where
  | trailingInput
  | unterminatedComment
  | missingValue
  | unexpected (found : Char)
  | expected (wanted : Char) (found : Option Char)
  | expectedKey (found : Char)
  | expectedSeparator (close found : Char)
  | unterminatedObject
  | unterminatedString
  | unterminatedEscape
  | unterminatedUnicodeEscape
  | invalidUnicodeEscape (digits : String)
  | unterminatedTemplate
  | unterminatedInterpolation
  | invalidNumber
  | expectedIdentifier
  | expectedIdentifierAfterDot
  | unterminatedCallback
  deriving Repr, DecidableEq

def Problem.message : Problem → String
  | trailingInput => "unexpected trailing input"
  | unterminatedComment => "unterminated block comment"
  | missingValue => "expected a value, found end of input"
  | unexpected found => s!"unexpected character '{found}'"
  | expected wanted none => s!"expected '{wanted}', found end of input"
  | expected wanted (some found) => s!"expected '{wanted}', found '{found}'"
  | expectedKey found => s!"expected object key, found '{found}'"
  | expectedSeparator close found => s!"expected ',' or '{close}', found '{found}'"
  | unterminatedObject => "unterminated object"
  | unterminatedString => "unterminated string"
  | unterminatedEscape => "unterminated escape"
  | unterminatedUnicodeEscape => "unterminated unicode escape"
  | invalidUnicodeEscape digits => s!"invalid unicode escape '{digits}'"
  | unterminatedTemplate => "unterminated template string"
  | unterminatedInterpolation => "unterminated template interpolation"
  | invalidNumber => "invalid number"
  | expectedIdentifier => "expected identifier"
  | expectedIdentifierAfterDot => "expected identifier after '.'"
  | unterminatedCallback => "unterminated callback"

/-- A problem met when `rest` was still to be read. -/
structure Failure where
  problem : Problem
  rest : List Char
  deriving Repr, DecidableEq

structure Error where
  problem : Problem
  /-- The place of the problem in bytes from the start of the text. -/
  offset : Nat
  deriving Repr, DecidableEq

def Error.message (error : Error) : String :=
  s!"{error.problem.message} at offset {error.offset}"

end CommandReference.Literal
