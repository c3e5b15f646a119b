import CommandReference.Yaml.Token.Name
import CommandReference.Yaml.Token.Scalar

/-! The tokens of a YAML text. In block style the indentation decides where a collection
starts and ends. A key needs no mark of its own: what may turn out to be a key is
remembered, and when a colon follows on the same line within 1024 bytes, the
token for the key is put in before it. -/
namespace CommandReference.Yaml

structure KeyStart where
  /-- Whether the text is at fault if no colon follows. -/
  isRequired : Bool
  position : Nat
  index : Nat
  line : Nat
  column : Nat
  deriving Repr

structure Layout where
  cursor : Cursor
  tokens : List Token
  indents : List Nat
  keyStart : Option KeyStart
  /-- The possible keys around it, as many as there are open flow collections. -/
  outerKeyStarts : List (Option KeyStart)
  keyAllowed : Bool
  deriving Repr

namespace Layout

def start (text : List Char) : Layout := ⟨.start text, [], [], none, [], true⟩

def inFlow (layout : Layout) : Bool := layout.outerKeyStarts ≠ []

def push (token : Token) (layout : Layout) : Layout :=
  { layout with tokens := layout.tokens ++ [token] }

def insert (position : Nat) (token : Token) (layout : Layout) : Layout :=
  { layout with
    tokens := layout.tokens.take position ++ token :: layout.tokens.drop position }

def dropKey (layout : Layout) : Option Layout :=
  if layout.keyStart.any (·.isRequired) then none else some { layout with keyStart := none }

def saveKey (layout : Layout) : Option Layout := do
  if layout.keyAllowed then
    let saved ← layout.dropKey
    let column := layout.cursor.column
    return { saved with
      keyStart := some {
        isRequired := !layout.inFlow && layout.indents.head? = some column
        position := layout.tokens.length
        index := layout.cursor.index
        line := layout.cursor.line
        column := column } }
  else return layout

def isStale (cursor : Cursor) (start : KeyStart) : Bool :=
  start.line < cursor.line || start.index + 1024 < cursor.index

def dropStale (cursor : Cursor) (start : Option KeyStart) : Option (Option KeyStart) :=
  match start with
  | some key =>
    if isStale cursor key then if key.isRequired then none else some none else some (some key)
  | none => some none

def dropStaleKeys (layout : Layout) : Option Layout := do
  return { layout with
    keyStart := ← dropStale layout.cursor layout.keyStart
    outerKeyStarts := ← layout.outerKeyStarts.mapM (dropStale layout.cursor) }

/-- Ends the block collections that are indented more than a column; all of them, if none
is given. -/
def closeBlocks (column : Option Nat) (layout : Layout) : Layout :=
  if layout.inFlow then layout
  else
    let isDeeper := fun indent => column.all (· < indent)
    let ended := layout.indents.takeWhile isDeeper
    { layout with
      tokens := layout.tokens ++ List.replicate ended.length .blockEnd
      indents := layout.indents.dropWhile isDeeper }

/-- Starts a block collection at a column, unless the innermost one is there already or
further right. -/
def openBlock (column position : Nat) (token : Token) (layout : Layout) : Layout :=
  if layout.inFlow || layout.indents.head?.any (column ≤ ·) then layout
  else { layout.insert position token with indents := column :: layout.indents }

/-- Passes over blanks, comments and line breaks up to the next token. A byte order mark may
start a line. In block style a line break allows a key, and a tab may not stand where a
key may start. -/
def toNextToken (layout : Layout) (cursor : Cursor) : Layout :=
  match _ : cursor.rest with
  | [] => { layout with cursor }
  | c :: _ =>
    if c = ' ' || (c = '\t' && (layout.inFlow || !layout.keyAllowed)) then
      toNextToken layout cursor.next
    else if cursor.column = 0 && c = '\ufeff' then toNextToken layout cursor.next
    else if c = '#' then
      let atEnd := cursor.skipWhile (!isBreak ·)
      if atEnd.rest.length < cursor.rest.length then toNextToken layout atEnd
      else { layout with cursor }
    else if _ : isBreak c then
      toNextToken { layout with keyAllowed := layout.keyAllowed || !layout.inFlow } cursor.nextLine
    else { layout with cursor }
termination_by cursor.rest.length
decreasing_by
  · exact Cursor.length_rest_next_lt (by assumption)
  · exact Cursor.length_rest_next_lt (by assumption)
  · assumption
  · exact Cursor.length_rest_nextLine_lt (by assumption) (by assumption)

def leaveDocument (layout : Layout) : Option Layout := do
  return { ← (layout.closeBlocks none).dropKey with keyAllowed := false }

def take (count : Nat) (token : Token) (layout : Layout) : Layout :=
  { layout.push token with cursor := layout.cursor.advance count }

def openFlow (token : Token) (layout : Layout) : Option Layout := do
  let saved ← layout.saveKey
  return {
    saved.take 1 token with
    keyStart := none
    outerKeyStarts := saved.keyStart :: saved.outerKeyStarts
    keyAllowed := true }

def closeFlow (token : Token) (layout : Layout) : Option Layout := do
  let dropped ← layout.dropKey
  let left := { dropped.take 1 token with keyAllowed := false }
  match left.outerKeyStarts with
  | [] => return left
  | outer :: others => return { left with keyStart := outer, outerKeyStarts := others }

def blockMark (collection token : Token) (layout : Layout) : Option Layout := do
  if !layout.inFlow && !layout.keyAllowed then none
  let opened := layout.openBlock layout.cursor.column layout.tokens.length collection
  return (← opened.dropKey).take 1 token

/-- The colon before a value. If no key has been remembered, it follows a key with a mark
of its own, or no key at all. -/
def valueMark (layout : Layout) : Option Layout :=
  match layout.keyStart with
  | some key =>
    let keyed := layout.insert key.position .key
    let opened := keyed.openBlock key.column key.position .blockMappingStart
    some { opened.take 1 .value with keyStart := none, keyAllowed := false }
  | none =>
    if layout.inFlow then some { layout.take 1 .value with keyAllowed := false }
    else if layout.keyAllowed then
      let opened := layout.openBlock layout.cursor.column layout.tokens.length .blockMappingStart
      some { opened.take 1 .value with keyAllowed := true }
    else none

def afterNode (token : Token) (cursor : Cursor) (layout : Layout) : Layout :=
  { layout.push token with cursor, keyAllowed := false }

def marks : List Char :=
  ['-', '?', ':', ',', '[', ']', '\x7b', '\x7d', '#', '&', '*', '!', '|', '>', '\'', '"', '%', '@',
   '`']

def startsPlain (inFlow : Bool) (c : Char) (rest : List Char) : Bool :=
  !(isBlankOrBreak c || marks.contains c) ||
    (c = '-' && !rest.head?.any isSpaceOrTab) ||
    (!inFlow && (c = '?' || c = ':') && !blankNext rest)

def nextToken (layout : Layout) (c : Char) (rest : List Char) : Option Layout := do
  let cursor := layout.cursor
  let inFlow := layout.inFlow
  if cursor.column = 0 && c = '%' then
    let left ← layout.leaveDocument
    let (token, following) ← directive cursor.next
    return { left.push token with cursor := following }
  else if cursor.atDocumentMark then
    return (← layout.leaveDocument).take 3 (if c = '-' then .documentStart else .documentEnd)
  else if c = '[' then layout.openFlow .flowSequenceStart
  else if c = '\x7b' then layout.openFlow .flowMappingStart
  else if c = ']' then layout.closeFlow .flowSequenceEnd
  else if c = '\x7d' then layout.closeFlow .flowMappingEnd
  else if c = ',' then
    return { (← layout.dropKey).take 1 .flowEntry with keyAllowed := true }
  else if c = '-' && blankNext rest then
    return { ← layout.blockMark .blockSequenceStart .blockEntry with keyAllowed := true }
  else if c = '?' && (inFlow || blankNext rest) then
    return { ← layout.blockMark .blockMappingStart .key with keyAllowed := !inFlow }
  else if c = ':' && (inFlow || blankNext rest) then layout.valueMark
  else if c = '*' then
    let (name, following) ← anchorName cursor.next
    return (← layout.saveKey).afterNode (.reference name) following
  else if c = '&' then
    let (name, following) ← anchorName cursor.next
    return (← layout.saveKey).afterNode (.anchor name) following
  else if c = '!' then
    let (handle, following) ← tag inFlow cursor
    return (← layout.saveKey).afterNode (.tag handle) following
  else if (c = '|' || c = '>') && !inFlow then
    let (text, following) ← blockScalar (c = '|') layout.indents.head? cursor.next
    return {
      (← layout.dropKey).afterNode (.scalar (String.ofList text) false) following with
      keyAllowed := true }
  else if c = '\'' || c = '"' then
    let (text, following) ← quotedScalar c [] .none cursor.next
    return (← layout.saveKey).afterNode (.scalar (String.ofList text) false) following
  else if startsPlain inFlow c rest then
    let indent := (layout.indents.head?.map (· + 1)).getD 0
    let (text, broken, following) ← plainScalar inFlow indent [] .none cursor
    return {
      (← layout.saveKey).afterNode (.scalar (String.ofList text) true) following with
      keyAllowed := broken }
  else none

/-- Scans all tokens. A step that takes nothing would not end and is refused. -/
def scan (layout : Layout) : Option (List Token) := do
  let ready ← (layout.toNextToken layout.cursor).dropStaleKeys
  match ready.cursor.rest with
  | [] => return (← ready.leaveDocument).tokens
  | c :: rest =>
    let following ← (ready.closeBlocks (some ready.cursor.column)).nextToken c rest
    if following.cursor.rest.length < layout.cursor.rest.length then following.scan else none
termination_by layout.cursor.rest.length

end Layout

def tokens? (text : List Char) : Option (List Token) :=
  if text.all isReadable then (Layout.start text).scan else none

end CommandReference.Yaml
