import CommandReference.Json.Basic
import CommandReference.Yaml.Scalar

/-! YAML in block style for JSON values. A mapping below a key is indented by two
columns, a sequence is not. -/
namespace CommandReference.Yaml

def endLine (text : List Char) : List Char :=
  if text.getLast?.any isBreak then text else text ++ ['\n']

def indent (column : Nat) : List Char := List.replicate column ' '

def stacked (column : Nat) (parts : List (List Char)) : List Char :=
  List.intercalate (indent column) parts

mutual

def afterDash (column : Nat) : Json → List Char
  | .array items =>
    match itemLines (column + 2) items with
    | [] => "[]\n".toList
    | parts => stacked (column + 2) parts
  | .object entries =>
    match entryLines (column + 2) entries with
    | [] => "\x7b\x7d\n".toList
    | parts => stacked (column + 2) parts
  | .string text => endLine (scalar column text)
  | .bool value => (if value then "true\n" else "false\n").toList
  | .number text => endLine text.toList
  | .null => "null\n".toList

def afterKey (column : Nat) : Json → List Char
  | .array items =>
    match itemLines column items with
    | [] => " []\n".toList
    | parts => '\n' :: indent column ++ stacked column parts
  | .object entries =>
    match entryLines (column + 2) entries with
    | [] => " \x7b\x7d\n".toList
    | parts => '\n' :: indent (column + 2) ++ stacked (column + 2) parts
  | .string text => ' ' :: endLine (scalar column text)
  | .bool value => (if value then " true\n" else " false\n").toList
  | .number text => ' ' :: endLine text.toList
  | .null => " null\n".toList

def itemLines (column : Nat) : List Json → List (List Char)
  | [] => []
  | item :: later => ('-' :: ' ' :: afterDash column item) :: itemLines column later

def entryLines (column : Nat) : List (String × Json) → List (List Char)
  | [] => []
  | (key, value) :: later =>
    (scalar column key ++ ':' :: afterKey column value) :: entryLines column later

end

def document (items : List Json) : String :=
  match itemLines 0 items with
  | [] => "[]\n"
  | parts => String.ofList (stacked 0 parts)

end CommandReference.Yaml
