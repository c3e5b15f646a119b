import CommandReference.Command.Basic
import CommandReference.Literal.Basic

/-! Arguments declared by literals. Each known key of the object sets one part of the
argument, a later field over an earlier one of the same key, and other keys are left
aside. -/
namespace CommandReference

inductive FieldError where
  | notObject
  | notText (key : String) (found : Literal.Kind)
  | notBool (key : String) (found : Literal.Kind)
  | typesNotArray (found : Literal.Kind)
  | notTypeTag (found : Literal.Kind)
  | defaultNotScalar (found : Literal.Kind)
  | choicesNotArray (found : Literal.Kind)
  | notChoice (found : Literal.Kind)
  | choiceWithoutText
  deriving Repr, DecidableEq

def FieldError.message : FieldError → String
  | notObject => "argument literal is not an object"
  | notText key found => s!"'{key}' must be a string, found {found.describe}"
  | notBool key found => s!"'{key}' must be a boolean, found {found.describe}"
  | typesNotArray found => s!"'typeList' must be an array, found {found.describe}"
  | notTypeTag found => s!"'typeList' entries must be type tags, found {found.describe}"
  | defaultNotScalar found => s!"'defaultValue' must be a scalar, found {found.describe}"
  | choicesNotArray found => s!"'enumList' must be an array, found {found.describe}"
  | notChoice found =>
    s!"'enumList' entries must be strings or enum values, found {found.describe}"
  | choiceWithoutText => "enum value must start with a string"

namespace Argument

def templatePlaceholder : String := "..."

def textOf (key : String) (literal : Literal) : Except FieldError String :=
  match literal.text? with
  | some text => .ok text
  | none => .error (.notText key literal.kind)

def boolOf (key : String) : Literal → Except FieldError Bool
  | .bool value => .ok value
  | .null => .ok false
  | other => .error (.notBool key other.kind)

def typeTagOf : Literal → Except FieldError String
  | .path name => .ok name
  | .string text => .ok text
  | other => .error (.notTypeTag other.kind)

/-- An array of type tags, or a single one. -/
def typeTagsOf : Literal → Except FieldError (List String)
  | .array items => items.mapM typeTagOf
  | .path name => .ok [name]
  | .string text => .ok [text]
  | other => .error (.typesNotArray other.kind)

def defaultOf : Literal → Except FieldError (Option String)
  | .string text => .ok (some text)
  | .template _ _ => .ok (some templatePlaceholder)
  | .number text => .ok (some text)
  | .bool value => .ok (some (if value then "true" else "false"))
  | .path name => .ok (some name)
  | .null => .ok none
  | other => .error (.defaultNotScalar other.kind)

def choiceOfParts (parts : List Literal) : Except FieldError Choice :=
  match parts.head?.bind Literal.text? with
  | some value => .ok ⟨value, parts[1]?.bind Literal.text?⟩
  | none => .error .choiceWithoutText

def choiceOf : Literal → Except FieldError Choice
  | .string text => .ok ⟨text, none⟩
  | .array parts => choiceOfParts parts
  | .call _ parts => choiceOfParts parts
  | other => .error (.notChoice other.kind)

def choicesOf : Literal → Except FieldError (List Choice)
  | .array items => items.mapM choiceOf
  | other => .error (.choicesNotArray other.kind)

def setField (argument : Argument) (key : String) (literal : Literal) :
    Except FieldError Argument :=
  match key with
  | "name" => return { argument with name := some (← textOf key literal) }
  | "description" => return { argument with description := some (← textOf key literal) }
  | "typeList" => return { argument with typeTags := some (← typeTagsOf literal) }
  | "isRequired" => return { argument with isRequired := ← boolOf key literal }
  | "acceptsMultiple" => return { argument with acceptsMultiple := ← boolOf key literal }
  | "defaultValue" => return { argument with defaultValue := ← defaultOf literal }
  | "enumList" => return { argument with choices := ← choicesOf literal }
  | _ => return argument

def ofLiteral : Literal → Except FieldError Argument
  | .object fields =>
    fields.foldlM (fun argument (key, literal) => argument.setField key literal) blank
  | _ => .error .notObject

end Argument

end CommandReference
