import CommandReference.Text.Digit
import CommandReference.Yaml.Cursor

/-! Scalars in the five styles of YAML. In plain and quoted scalars a single line break
is folded into a space, and of several the first is dropped. In a folded block this
holds only between lines that do not begin with a blank; a literal block keeps its line
breaks. -/
namespace CommandReference.Yaml
open Text

structure Gap where
  blanks : List Char
  broken : Bool
  first : List Char
  later : List Char
  deriving Repr, Inhabited

namespace Gap

def none : Gap := ⟨[], false, [], []⟩

def escapedBreak : Gap := ⟨[], true, [], []⟩

def addBlank (c : Char) (gap : Gap) : Gap :=
  if gap.broken then gap else { gap with blanks := gap.blanks ++ [c] }

def addBreak (lineBreak : List Char) (gap : Gap) : Gap :=
  if gap.broken then { gap with later := gap.later ++ lineBreak } else ⟨[], true, lineBreak, []⟩

def text (gap : Gap) : List Char :=
  if !gap.broken then gap.blanks
  else if gap.first = ['\n'] then if gap.later = [] then [' '] else gap.later
  else gap.first ++ gap.later

def join (gap : Gap) (text : List Char) : List Char := gap.text.reverse ++ text

def isEmpty (gap : Gap) : Bool := gap.blanks = [] && !gap.broken

end Gap

def isFlowMark (c : Char) : Bool :=
  c = ',' || c = '[' || c = ']' || c = '\x7b' || c = '\x7d'

/-- Scans a plain scalar, given its text so far, the last character first, and the gap
after it. The first line may begin anywhere, later ones not before column `indent`, save
in a flow collection. Gives back the text, whether a line break followed it, and the
place after that. -/
def plainScalar (inFlow : Bool) (indent : Nat) (text : List Char) (gap : Gap) (cursor : Cursor) :
    Option (List Char × Bool × Cursor) :=
  match _ : cursor.rest with
  | [] => some (text.reverse, gap.broken, cursor)
  | c :: rest =>
    if isSpaceOrTab c then
      if gap.broken && c = '\t' && cursor.column < indent then none
      else plainScalar inFlow indent text (gap.addBlank c) cursor.next
    else if _ : isBreak c then
      plainScalar inFlow indent text (gap.addBreak cursor.lineBreak) cursor.nextLine
    else if !gap.isEmpty &&
        ((!inFlow && cursor.column < indent) || cursor.atDocumentMark || c = '#') then
      some (text.reverse, gap.broken, cursor)
    else if inFlow && c = ':' && rest.head?.any (fun d => isFlowMark d || d = '?') then none
    else if (c = ':' && blankNext rest) || (inFlow && isFlowMark c) then
      some (text.reverse, gap.broken, cursor)
    else plainScalar inFlow indent (c :: gap.join text) .none cursor.next
termination_by cursor.rest.length
decreasing_by
  · exact Cursor.length_rest_next_lt (by assumption)
  · exact Cursor.length_rest_nextLine_lt (by assumption) (by assumption)
  · exact Cursor.length_rest_next_lt (by assumption)

def escapes : List (Char × Char) :=
  [('0', '\x00'), ('a', '\x07'), ('b', '\x08'), ('t', '\t'), ('\t', '\t'), ('n', '\n'),
   ('v', '\x0b'), ('f', '\x0c'), ('r', '\r'), ('e', '\x1b'), (' ', ' '), ('"', '"'),
   ('/', '/'), ('\\', '\\'), ('N', '\u0085'), ('_', '\u00a0'), ('L', '\u2028'),
   ('P', '\u2029')]

def codeEscapes : List (Char × Nat) := [('x', 2), ('u', 4), ('U', 8)]

/-- The character for which an escape stands and the number of characters after the
backslash that it takes. -/
def escape? (cs : List Char) : Option (Char × Nat) :=
  match cs with
  | [] => none
  | c :: rest =>
    match escapes.lookup c, codeEscapes.lookup c with
    | some character, _ => some (character, 1)
    | none, some width => do
      let code ← digits? 16 (rest.take width)
      if width ≤ rest.length ∧ code.isValidChar then some (Char.ofNat code, width + 1) else none
    | none, none => none

/-- Scans the rest of a quoted scalar, given its text so far, the last character first,
and the gap after it. -/
def quotedScalar (quote : Char) (text : List Char) (gap : Gap) (cursor : Cursor) :
    Option (List Char × Cursor) :=
  match _ : cursor.rest with
  | [] => none
  | c :: rest =>
    if isSpaceOrTab c then quotedScalar quote text (gap.addBlank c) cursor.next
    else if _ : isBreak c then
      quotedScalar quote text (gap.addBreak cursor.lineBreak) cursor.nextLine
    else if cursor.atDocumentMark then none
    else if c = quote then
      if quote = '\'' ∧ rest.head? = some '\'' then
        quotedScalar quote (c :: gap.join text) .none (cursor.advance 2)
      else some ((gap.join text).reverse, cursor.next)
    else if quote = '"' ∧ c = '\\' then
      if rest.head?.any isBreak then
        quotedScalar quote (gap.join text) .escapedBreak cursor.next.nextLine
      else
        match escape? rest with
        | some (character, width) =>
          quotedScalar quote (character :: gap.join text) .none (cursor.advance (width + 1))
        | none => none
    else quotedScalar quote (c :: gap.join text) .none cursor.next
termination_by cursor.rest.length
decreasing_by
  · exact Cursor.length_rest_next_lt (by assumption)
  · exact Cursor.length_rest_nextLine_lt (by assumption) (by assumption)
  · grind [Cursor.advance]
  · exact Nat.lt_of_le_of_lt (Cursor.length_rest_nextLine_le _)
      (Cursor.length_rest_next_lt (by assumption))
  · grind [Cursor.advance]
  · exact Cursor.length_rest_next_lt (by assumption)

inductive Chomping where
  | strip
  | clip
  | keep
  deriving Repr, DecidableEq

def chomping? : Char → Option Chomping
  | '-' => some .strip
  | '+' => some .keep
  | _ => none

/-- The header of a block scalar: how its end is chomped and by how much it is indented,
in either order. -/
def blockHeader (cursor : Cursor) : Option (Chomping × Option Nat × Cursor) :=
  match cursor.rest with
  | a :: b :: _ =>
    match chomping? a, chomping? b with
    | some chomping, _ =>
      if isDigit b then (indentOf b).map (chomping, some ·, cursor.advance 2)
      else some (chomping, none, cursor.next)
    | none, after =>
      if isDigit a then
        match after with
        | some chomping => (indentOf a).map (chomping, some ·, cursor.advance 2)
        | none => (indentOf a).map (.clip, some ·, cursor.next)
      else some (.clip, none, cursor)
  | [a] =>
    match chomping? a with
    | some chomping => some (chomping, none, cursor.next)
    | none =>
      if isDigit a then (indentOf a).map (.clip, some ·, cursor.next)
      else some (.clip, none, cursor)
  | [] => some (.clip, none, cursor)
where
  indentOf (c : Char) : Option Nat := if c = '0' then none else some (c.toNat - '0'.toNat)

/-- Passes over indentation and empty lines. While no indentation is set all spaces are
indentation, and a tab may not stand among them. Gives back the deepest column that was
reached and the line breaks. -/
def emptyLines (indent : Option Nat) (deepest : Nat) (breaks : List Char) (cursor : Cursor) :
    Option (Nat × List Char × Cursor) :=
  match _ : cursor.rest with
  | [] => some (max deepest cursor.column, breaks, cursor)
  | c :: _ =>
    let inIndent := indent.all (cursor.column < ·)
    if inIndent && c = ' ' then emptyLines indent deepest breaks cursor.next
    else if inIndent && c = '\t' then none
    else if _ : isBreak c then
      emptyLines indent (max deepest cursor.column) (breaks ++ cursor.lineBreak) cursor.nextLine
    else some (max deepest cursor.column, breaks, cursor)
termination_by cursor.rest.length
decreasing_by
  · exact Cursor.length_rest_next_lt (by assumption)
  · exact Cursor.length_rest_nextLine_lt (by assumption) (by assumption)

structure BlockText where
  text : List Char
  first : List Char
  later : List Char
  afterBlank : Bool
  deriving Repr

namespace BlockText

def joint (isLiteral beforeBlank : Bool) (block : BlockText) : List Char :=
  if !isLiteral && block.first = ['\n'] && !block.afterBlank && !beforeBlank then
    if block.later = [] then [' '] else block.later
  else block.first ++ block.later

def finish (chomping : Chomping) (block : BlockText) : List Char :=
  match chomping with
  | .strip => block.text
  | .clip => block.text ++ block.first
  | .keep => block.text ++ block.first ++ block.later

end BlockText

/-- Scans the lines of a block scalar that begin at its indentation. A step that takes
nothing would not end and is refused. -/
def blockLines (isLiteral : Bool) (indent : Nat) (block : BlockText) (cursor : Cursor) :
    Option (BlockText × Cursor) :=
  if cursor.column = indent && cursor.rest ≠ [] then do
    let blank := cursor.rest.head?.any isSpaceOrTab
    let line := cursor.rest.takeWhile (!isBreak ·)
    let atEnd := cursor.advance line.length
    let (_, later, following) ← emptyLines (some indent) 0 [] atEnd.nextLine
    let block := ⟨block.text ++ block.joint isLiteral blank ++ line, atEnd.lineBreak, later, blank⟩
    if following.rest.length < cursor.rest.length then
      blockLines isLiteral indent block following
    else none
  else some (block, cursor)
termination_by cursor.rest.length

/-- Scans a block scalar after the mark with which it begins, in a block collection at
column `outer`, if there is one. -/
def blockScalar (isLiteral : Bool) (outer : Option Nat) (cursor : Cursor) :
    Option (List Char × Cursor) := do
  let (chomping, increment, cursor) ← blockHeader cursor
  let cursor ← cursor.lineEnd?
  let least := (outer.map (· + 1)).getD 0
  let declared := increment.map (outer.getD 0 + ·)
  let (deepest, breaks, cursor) ← emptyLines declared 0 [] cursor
  let indent := declared.getD (max deepest (max least 1))
  let (block, cursor) ← blockLines isLiteral indent ⟨[], [], breaks, false⟩ cursor
  return (block.finish chomping, cursor)

end CommandReference.Yaml
