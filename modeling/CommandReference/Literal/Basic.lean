/-! Literals of the registration source: the values that an argument declaration may
hold. Numbers stay as written, template strings keep the text between their
backticks, and the body of a function is not kept at all. -/
namespace CommandReference

inductive Literal where
  /-- Fields in the order of the source, repeated keys included. -/
  | object (fields : List (String × Literal))
  | array (items : List Literal)
  | string (text : String)
  | template (raw : String) (interpolated : Bool)
  | number (text : String)
  | bool (value : Bool)
  | null
  | path (name : String)
  | call (callee : String) (arguments : List Literal)
  | callback
  deriving Repr, Inhabited

namespace Literal

def text? : Literal → Option String
  | string text => some text
  | template raw _ => some raw
  | _ => none

def get? (key : String) : Literal → Option Literal
  | object fields => fields.lookup key
  | _ => none

inductive Kind where
  | object | array | string | template | number | bool | null | path | call | callback
  deriving Repr, DecidableEq, Inhabited

def kind : Literal → Kind
  | object _ => .object
  | array _ => .array
  | string _ => .string
  | template _ _ => .template
  | number _ => .number
  | bool _ => .bool
  | null => .null
  | path _ => .path
  | call _ _ => .call
  | callback => .callback

def Kind.describe : Kind → String
  | object => "an object"
  | array => "an array"
  | string => "a string"
  | template => "a template string"
  | number => "a number"
  | bool => "a boolean"
  | null => "null"
  | path => "an identifier"
  | call => "a call expression"
  | callback => "a function"

end Literal

end CommandReference
