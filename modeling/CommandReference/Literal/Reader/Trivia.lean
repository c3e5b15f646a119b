import CommandReference.Literal.Error
import CommandReference.Rest
import CommandReference.Text.Blank

/-! What may stand between the tokens of a literal: blanks and comments. -/
namespace CommandReference.Literal.Reader
open Text

def afterBlockComment : (s : List Char) → Option (ProperRest s)
  | '*' :: '/' :: r => some ((ProperRest.tail '/' r).behind '*')
  | c :: r => (afterBlockComment r).map (·.behind c)
  | [] => none

/-- What follows the comment with which a text begins, if it begins with one. A line
comment leaves its line feed. -/
def comment : (s : List Char) → Except Failure (Option (ProperRest s))
  | '/' :: '/' :: r => return some (((Rest.pastWhile (· != '\n') r).behind '/').behind '/')
  | '/' :: '*' :: r =>
    match afterBlockComment r with
    | some rest => return some ((rest.behind '*').behind '/')
    | none => throw ⟨.unterminatedComment, '/' :: '*' :: r⟩
  | _ => return none

def trivia (s : List Char) : Except Failure (Rest s) := do
  let blanks := Rest.pastWhile isBlank s
  match ← comment blanks.1 with
  | none => return blanks
  | some t =>
    let rest ← trivia t.1
    return blanks.andThen (t.andThen rest).weaken
termination_by s.length
decreasing_by exact Nat.lt_of_lt_of_le t.length_lt blanks.length_le

def next (s : List Char) : Except Failure (Option (Char × ProperRest s)) :=
  return (← trivia s).uncons?

def expect (wanted : Char) (s : List Char) : Except Failure (ProperRest s) := do
  match ← next s with
  | none => throw ⟨.expected wanted none, []⟩
  | some (c, r) => if c = wanted then return r else throw ⟨.expected wanted (some c), c :: r.1⟩

/-- Passes over the comma after an item. The closing bracket may follow instead, and
is left to be read. -/
def separator (close : Char) (atEnd : Problem) (s : List Char) : Except Failure (Rest s) := do
  let t ← trivia s
  match t.uncons? with
  | none => throw ⟨atEnd, []⟩
  | some (c, r) =>
    if c = ',' then return r.weaken
    else if c = close then return t
    else throw ⟨.expectedSeparator close c, t.1⟩

end CommandReference.Literal.Reader
