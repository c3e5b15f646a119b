import CommandReference.Literal.Basic
import CommandReference.Literal.Reader.Word
import CommandReference.Text.Part

/-! The grammar of literals. Commas separate the fields of an object and the items of
an array or of a call, and one may stand before the closing bracket. A path that stands
before an arrow, the words `async` and `function`, and an opening parenthesis begin a
function. -/
namespace CommandReference.Literal
open Text

namespace Reader

mutual

def value (s : List Char) : Except Failure (Literal × ProperRest s) := do
  match ← next s with
  | none => throw ⟨.missingValue, []⟩
  | some (c, r) =>
    if c = '{' then
      let (entries, rest) ← fields r.1
      return (.object entries, r.andProper rest)
    else if c = '[' then
      let (entries, rest) ← items ']' r.1
      return (.array entries, r.andProper rest)
    else if c = '\'' ∨ c = '"' then
      let (text, rest) ← quoted (c :: r.1) c r.1
      return (.string (String.ofList text), r.andProper rest)
    else if c = '`' then
      let (interpolated, rest) ← template (c :: r.1) r.1
      let raw := r.1.take (r.1.length - rest.1.length - 1)
      return (.template (String.ofList raw) interpolated, r.andProper rest)
    else if c = '(' then
      let rest ← callback 1 r.1
      return (.callback, r.andThen rest)
    else if c = '-' ∨ c = '+' ∨ isDigit c then
      let (written, rest) ← number c r.1
      return (.number (String.ofList written), r.andThen rest)
    else if isIdentifierStart c then
      let (name, tail) ← path (c :: r.1)
      let t := r.insteadOf c tail
      match String.ofList name with
      | "true" => return (.bool true, t)
      | "false" => return (.bool false, t)
      | "null" | "undefined" => return (.null, t)
      | "async" | "function" =>
        let rest ← callback 0 t.1
        return (.callback, t.andThen rest)
      | "new" =>
        let u ← trivia t.1
        let (callee, v) ← path u.1
        let w ← expect '(' v.1
        let (entries, rest) ← items ')' w.1
        return (.call (String.ofList callee) entries,
          t.andProper (u.andProper (v.andProper (w.andProper rest))))
      | name =>
        let u ← trivia t.1
        match u.1 with
        | '=' :: '>' :: _ =>
          let rest ← callback 0 t.1
          return (.callback, t.andThen rest)
        | '(' :: _ =>
          let w ← expect '(' u.1
          let (entries, rest) ← items ')' w.1
          return (.call name entries, t.andProper (u.andProper (w.andProper rest)))
        | _ => return (.path name, t)
    else throw ⟨.unexpected c, c :: r.1⟩
termination_by 2 * s.length
decreasing_by
  · have := r.length_lt; omega
  · have := r.length_lt; omega
  · have := t.length_lt; have := u.length_le; have := v.length_lt; have := w.length_lt; omega
  · have := t.length_lt; have := u.length_le; have := w.length_lt; omega

def fields (s : List Char) : Except Failure (List (String × Literal) × ProperRest s) := do
  match ← next s with
  | none => throw ⟨.unterminatedObject, []⟩
  | some (c, r) =>
    if c = '}' then return ([], r)
    let (name, t) ← key c r.1
    let u ← expect ':' t.1
    let (content, v) ← value u.1
    let w ← separator '}' .unterminatedObject v.1
    let (later, rest) ← fields w.1
    return ((String.ofList name, content) :: later,
      r.andProper (t.andProper (u.andProper (v.andProper (w.andProper rest)))))
termination_by 2 * s.length
decreasing_by
  · have := r.length_lt; have := t.length_le; have := u.length_lt; omega
  · have := r.length_lt; have := t.length_le; have := u.length_lt; have := v.length_lt
    have := w.length_le; omega

def items (close : Char) (s : List Char) : Except Failure (List Literal × ProperRest s) := do
  match ← next s with
  | some (c, r) => if c = close then return ([], r)
  | none => pure ()
  let (item, v) ← value s
  let w ← separator close (.expected close none) v.1
  let (later, rest) ← items close w.1
  return (item :: later, v.andProper (w.andProper rest))
termination_by 2 * s.length + 1
decreasing_by
  · omega
  · have := v.length_lt; have := w.length_le; omega

end

def complete (s : List Char) : Except Failure Literal := do
  let (literal, t) ← value s
  match ← trivia t.1 with
  | ⟨[], _⟩ => return literal
  | ⟨c :: r, _⟩ => throw ⟨.trailingInput, c :: r⟩

end Reader

def parse (text : String) : Except Error Literal :=
  (Reader.complete text.toList).mapError fun failure =>
    ⟨failure.problem, byteSize text.toList - byteSize failure.rest⟩

end CommandReference.Literal
