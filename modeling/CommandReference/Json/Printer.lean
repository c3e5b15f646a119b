import CommandReference.Json.Basic
import CommandReference.Text.Digit

/-! JSON text, two columns of indentation for each level. Inside strings only quotes,
backslashes and control characters are escaped. -/
namespace CommandReference.Json
open Text

def escapeChar (c : Char) : List Char :=
  if c = '"' then ['\\', '"']
  else if c = '\\' then ['\\', '\\']
  else if c = '\x08' then ['\\', 'b']
  else if c = '\x0c' then ['\\', 'f']
  else if c = '\n' then ['\\', 'n']
  else if c = '\r' then ['\\', 'r']
  else if c = '\t' then ['\\', 't']
  else if c.toNat < 0x20 then
    ['\\', 'u', '0', '0', hexDigit 'a' (c.toNat / 16), hexDigit 'a' (c.toNat % 16)]
  else [c]

def quote (text : String) : List Char := '"' :: text.toList.flatMap escapeChar ++ ['"']

def newLine (level : Nat) : List Char := '\n' :: List.replicate (2 * level) ' '

def bracketed (opening closing : Char) (level : Nat) (parts : List (List Char)) : List Char :=
  match parts with
  | [] => [opening, closing]
  | parts =>
    opening :: newLine (level + 1) ++
      List.intercalate (',' :: newLine (level + 1)) parts ++ newLine level ++ [closing]

mutual

def print (level : Nat) : Json → List Char
  | null => "null".toList
  | bool value => (if value then "true" else "false").toList
  | number text => text.toList
  | string text => quote text
  | array items => bracketed '[' ']' level (printItems (level + 1) items)
  | object entries => bracketed '\x7b' '\x7d' level (printEntries (level + 1) entries)

def printItems (level : Nat) : List Json → List (List Char)
  | [] => []
  | item :: later => print level item :: printItems level later

def printEntries (level : Nat) : List (String × Json) → List (List Char)
  | [] => []
  | (key, value) :: later =>
    (quote key ++ ": ".toList ++ print level value) :: printEntries level later

end

def pretty (json : Json) : String := String.ofList (print 0 json)

end CommandReference.Json
