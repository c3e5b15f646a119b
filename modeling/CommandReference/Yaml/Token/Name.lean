import CommandReference.Text.Digit
import CommandReference.Yaml.Cursor
import CommandReference.Yaml.Token.Basic

/-! Anchors, aliases, tags and directives. Of a tag only its handle is kept, which has
to be known; the rest of it is checked for its form. -/
namespace CommandReference.Yaml
open Text

def endsAnchor (rest : List Char) : Bool :=
  blankNext rest || rest.head?.any (['?', ':', ',', ']', '\x7d', '%', '@', '`'].contains ·)

def anchorName (cursor : Cursor) : Option (String × Cursor) :=
  let name := cursor.rest.takeWhile isNameChar
  let following := cursor.advance name.length
  if name ≠ [] && endsAnchor following.rest then some (String.ofList name, following) else none

def isUriChar (verbatim : Bool) (c : Char) : Bool :=
  isNameChar c || ";/?:@&=+$.%!~*'()".toList.contains c || (verbatim && ",[]".toList.contains c)

def sequenceLength (byte : Nat) : Option Nat :=
  if byte < 0x80 then some 1
  else if 0xc0 ≤ byte ∧ byte < 0xe0 then some 2
  else if 0xe0 ≤ byte ∧ byte < 0xf0 then some 3
  else if 0xf0 ≤ byte ∧ byte < 0xf8 then some 4
  else none

/-- Whether every percent sign of a tag begins an escaped byte, and the bytes are those of
characters; `owed` is the number of bytes that the current character still lacks. -/
def escapesBytes (owed : Nat) : List Char → Bool
  | [] => owed = 0
  | c :: rest =>
    if c = '%' then
      match rest with
      | a :: b :: rest =>
        match digits? 16 [a, b], owed with
        | some byte, 0 =>
          match sequenceLength byte with
          | some length => escapesBytes (length - 1) rest
          | none => false
        | some byte, more + 1 => 0x80 ≤ byte && byte < 0xc0 && escapesBytes more rest
        | none, _ => false
      | _ => false
    else owed = 0 && escapesBytes 0 rest

def tagUri (verbatim mayBeEmpty : Bool) (cursor : Cursor) : Option Cursor :=
  let uri := cursor.rest.takeWhile (isUriChar verbatim)
  if (mayBeEmpty || uri ≠ []) && escapesBytes 0 uri then some (cursor.advance uri.length) else none

def handleText (cursor : Cursor) : List Char :=
  match cursor.rest with
  | [] => []
  | mark :: rest =>
    let name := rest.takeWhile isNameChar
    mark :: name ++ (if (rest.drop name.length).head? = some '!' then ['!'] else [])

/-- A tag, which begins with an exclamation mark. The handle of a verbatim tag, and of a
lone mark, is empty. -/
def tag (inFlow : Bool) (cursor : Cursor) : Option (String × Cursor) := do
  let (handle, following) ←
    match cursor.rest with
    | '!' :: '<' :: _ => do
      let finish ← tagUri true false (cursor.advance 2)
      if finish.startsWith '>' then pure ("", finish.next) else none
    | _ => do
      let text := handleText cursor
      let following := cursor.advance text.length
      if 1 < text.length && text.getLast? = some '!' then
        pure (String.ofList text, ← tagUri false false following)
      else
        let finish ← tagUri false true following
        pure (if text = ['!'] && finish.index = following.index then "" else "!", finish)
  if blankNext following.rest || (inFlow && following.startsWith ',') then
    some (handle, following)
  else none

def versionNumber (cursor : Cursor) : Option (Nat × Cursor) := do
  let digits := cursor.rest.takeWhile isDigit
  if digits.length ≤ 9 then return (← digits? 10 digits, cursor.advance digits.length) else none

def directive (cursor : Cursor) : Option (Token × Cursor) := do
  let name := cursor.rest.takeWhile isNameChar
  let cursor := cursor.advance name.length
  if !blankNext cursor.rest then none
  let cursor := cursor.skipWhile isSpaceOrTab
  let (token, cursor) ←
    match String.ofList name with
    | "YAML" => do
      let (major, cursor) ← versionNumber cursor
      if !cursor.startsWith '.' then none
      let (minor, cursor) ← versionNumber cursor.next
      pure (Token.versionDirective major minor, cursor)
    | "TAG" => do
      let handle := handleText cursor
      let following := cursor.advance handle.length
      if !cursor.startsWith '!' || handle.getLast? ≠ some '!' then none
      if !following.rest.head?.any isSpaceOrTab then none
      let finish ← tagUri true false (following.skipWhile isSpaceOrTab)
      if !blankNext finish.rest then none
      pure (Token.tagDirective (String.ofList handle), finish)
    | _ => none
  return (token, ← cursor.lineEnd?)

end CommandReference.Yaml
