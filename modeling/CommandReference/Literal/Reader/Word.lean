import CommandReference.Literal.Reader.Quoted
import CommandReference.Text.Letter

/-! Numbers, dotted paths, the keys of fields, and functions, which are passed over
without looking at their sense. -/
namespace CommandReference.Literal.Reader
open Text

def isNumberPart (c : Char) : Bool := c.isAlphanum || c = '.' || c = '_'

/-- Reads a number as written: a sign at most, then letters, digits, dots and
underscores, with a digit among them. -/
def number (c : Char) (r : List Char) : Except Failure (List Char × Rest r) :=
  let written := c :: r.takeWhile isNumberPart
  if written.any isDigit then
    return (written, Rest.pastWhile isNumberPart r)
  else throw ⟨.invalidNumber, c :: r⟩

def isIdentifierStart (c : Char) : Bool := isLetter c || c = '_' || c = '$'

def isIdentifierPart (c : Char) : Bool := isLetter c || isNumeral c || c = '_' || c = '$'

def segments (s : List Char) : Except Failure (List Char × Rest s) :=
  match s with
  | '.' :: r =>
    if r.takeWhile isIdentifierPart = [] then throw ⟨.expectedIdentifierAfterDot, r⟩
    else do
      let t := Rest.pastWhile isIdentifierPart r
      let (later, rest) ← segments t.1
      return ('.' :: r.takeWhile isIdentifierPart ++ later,
        ((t.andThen rest).behind '.').weaken)
  | s => return ([], Rest.all s)
termination_by s.length
decreasing_by exact (t.behind '.').length_lt

def path (s : List Char) : Except Failure (List Char × ProperRest s) :=
  match ProperRest.pastWhile? isIdentifierPart s with
  | none => throw ⟨.expectedIdentifier, s⟩
  | some t => do
    let (later, rest) ← segments t.1
    return (s.takeWhile isIdentifierPart ++ later, t.andThen rest)

def key (c : Char) (r : List Char) : Except Failure (List Char × Rest r) :=
  if c = '\'' ∨ c = '"' then do
    let (text, rest) ← quoted (c :: r) c r
    return (text, rest.weaken)
  else if isIdentifierStart c then
    return (c :: r.takeWhile isIdentifierPart, Rest.pastWhile isIdentifierPart r)
  else throw ⟨.expectedKey c, c :: r⟩

def opensBracket (c : Char) : Bool := c = '(' || c = '[' || c = '{'

def closesBracket (c : Char) : Bool := c = ')' || c = ']' || c = '}'

/-- Passes over the rest of a function, inside `depth` brackets: up to a comma or a
closing bracket outside all of them, or up to the end of the text. -/
def callback (depth : Nat) (s : List Char) : Except Failure (Rest s) :=
  match s with
  | [] => if depth = 0 then return Rest.all [] else throw ⟨.unterminatedCallback, []⟩
  | c :: r => do
    if c = '\'' ∨ c = '"' then
      let (_, t) ← quoted (c :: r) c r
      let rest ← callback depth t.1
      return ((t.andThen rest).behind c).weaken
    else if c = '`' then
      let (_, t) ← template (c :: r) r
      let rest ← callback depth t.1
      return ((t.andThen rest).behind c).weaken
    else
      match ← comment (c :: r) with
      | some t =>
        let rest ← callback depth t.1
        return (t.andThen rest).weaken
      | none =>
        if opensBracket c then
          let rest ← callback (depth + 1) r
          return (rest.behind c).weaken
        else if depth = 0 ∧ (closesBracket c ∨ c = ',') then
          return Rest.all (c :: r)
        else if closesBracket c then
          let rest ← callback (depth - 1) r
          return (rest.behind c).weaken
        else
          let rest ← callback depth r
          return (rest.behind c).weaken
termination_by s.length
decreasing_by
  · exact (t.behind c).length_lt
  · exact (t.behind c).length_lt
  · exact t.length_lt
  all_goals exact Nat.lt_succ_self _

end CommandReference.Literal.Reader
