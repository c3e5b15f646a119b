import CommandReference.Text.Part
import CommandReference.Yaml.Character

/-! A place in a YAML text: what is left of the text, and how far the place is from the
start of the text, in bytes, and from the start of its line, in characters. -/
namespace CommandReference.Yaml
open Text

structure Cursor where
  rest : List Char
  index : Nat
  line : Nat
  column : Nat
  deriving Repr, Inhabited

namespace Cursor

def start (text : List Char) : Cursor := ⟨text, 0, 0, 0⟩

def advance (count : Nat) (cursor : Cursor) : Cursor :=
  ⟨cursor.rest.drop count, cursor.index + byteSize (cursor.rest.take count), cursor.line,
    cursor.column + count⟩

def next (cursor : Cursor) : Cursor := cursor.advance 1

def skipWhile (p : Char → Bool) (cursor : Cursor) : Cursor :=
  cursor.advance (cursor.rest.takeWhile p).length

/-- The place after a line break; a carriage return and a line feed are one. -/
def nextLine (cursor : Cursor) : Cursor :=
  match cursor.rest with
  | '\r' :: '\n' :: rest => ⟨rest, cursor.index + 2, cursor.line + 1, 0⟩
  | c :: rest => if isBreak c then ⟨rest, cursor.index + c.utf8Size, cursor.line + 1, 0⟩ else cursor
  | [] => cursor

/-- What a line break stands for: a line feed, save that the separators of lines and of
paragraphs stand for themselves. Nothing where there is no line break. -/
def lineBreak (cursor : Cursor) : List Char :=
  match cursor.rest with
  | c :: _ =>
    if c = '\u2028' || c = '\u2029' then [c] else if isBreak c then ['\n'] else []
  | [] => []

def atBreak (cursor : Cursor) : Bool := cursor.rest.head?.any isBreak

def startsWith (c : Char) (cursor : Cursor) : Bool := cursor.rest.head? = some c

/-- Whether one of the marks between documents stands here, at the start of a line. -/
def atDocumentMark (cursor : Cursor) : Bool :=
  cursor.column = 0 &&
    (match cursor.rest with
      | '-' :: '-' :: '-' :: rest => blankNext rest
      | '.' :: '.' :: '.' :: rest => blankNext rest
      | _ => false)

/-- The place at the end of the line, unless something other than blanks and a comment
stands before it. -/
def lineEnd? (cursor : Cursor) : Option Cursor :=
  let cursor := cursor.skipWhile isSpaceOrTab
  let cursor := if cursor.startsWith '#' then cursor.skipWhile (!isBreak ·) else cursor
  if cursor.rest = [] || cursor.atBreak then some cursor.nextLine else none

theorem length_rest_next_lt {cursor : Cursor} {c : Char} {rest : List Char}
    (here : cursor.rest = c :: rest) : cursor.next.rest.length < cursor.rest.length := by
  simp [next, advance, here]

theorem length_rest_nextLine_le (cursor : Cursor) :
    cursor.nextLine.rest.length ≤ cursor.rest.length := by
  grind [nextLine]

theorem length_rest_nextLine_lt {cursor : Cursor} {c : Char} {rest : List Char}
    (here : cursor.rest = c :: rest) (ends : isBreak c) :
    cursor.nextLine.rest.length < cursor.rest.length := by
  grind [nextLine]

end Cursor

end CommandReference.Yaml
