import CommandReference.Json.Basic
import CommandReference.Rest
import CommandReference.Text.Digit

/-! JSON text read back. Blanks may stand between all tokens, and a character beyond the
first plane may be escaped as a pair of surrogates. -/
namespace CommandReference.Json

namespace Reader
open Text

def isBlank (c : Char) : Bool := c = ' ' || c = '\n' || c = '\r' || c = '\t'

def next? (s : List Char) : Option (Char × ProperRest s) := (Rest.pastWhile isBlank s).uncons?

def expect? (wanted : Char) (s : List Char) : Option (ProperRest s) := do
  let (c, rest) ← next? s
  if c = wanted then some rest else none

def past? : (wanted s : List Char) → Option (Rest s)
  | [], s => some (Rest.all s)
  | w :: wanted, c :: s =>
    if w = c then (past? wanted s).map fun rest => (rest.behind c).weaken else none
  | _ :: _, [] => none

def escapes : List (Char × Char) :=
  [('"', '"'), ('\\', '\\'), ('/', '/'), ('b', '\x08'), ('f', '\x0c'), ('n', '\n'), ('r', '\r'),
   ('t', '\t')]

def paired? (high low : Nat) : Option Char :=
  if 0xd800 ≤ high ∧ high < 0xdc00 ∧ 0xdc00 ≤ low ∧ low < 0xe000 then
    some (Char.ofNat (0x10000 + (high - 0xd800) * 0x400 + (low - 0xdc00)))
  else none

def escape? : (s : List Char) → Option (Char × ProperRest s)
  | 'u' :: s => do
    let high ← unit? s
    if high.isValidChar then return (Char.ofNat high, (Rest.drop 4 s).behind 'u')
    let t := Rest.drop 4 s
    let u ← past? ['\\', 'u'] t.1
    return (← paired? high (← unit? u.1), (t.andThen (u.andThen (Rest.drop 4 u.1))).behind 'u')
  | c :: s => (escapes.lookup c).map (·, ProperRest.tail c s)
  | [] => none
where
  unit? (s : List Char) : Option Nat := if s.length < 4 then none else digits? 16 (s.take 4)

/-- Reads the rest of a string up to its closing quote. Control characters have to be
escaped. -/
def text? (s : List Char) : Option (List Char × ProperRest s) :=
  match s with
  | [] => none
  | '"' :: s => some ([], ProperRest.tail '"' s)
  | '\\' :: s => do
    let (c, t) ← escape? s
    let (later, rest) ← text? t.1
    return (c :: later, (t.andProper rest).behind '\\')
  | c :: s =>
    if c.toNat < 0x20 then none
    else do
      let (later, rest) ← text? s
      return (c :: later, rest.behind c)
termination_by s.length
decreasing_by
  · exact (t.behind '\\').length_lt
  · exact Nat.lt_succ_self _

def isNumberPart (c : Char) : Bool :=
  isDigit c || c = '-' || c = '+' || c = '.' || c = 'e' || c = 'E'

def allDigits (cs : List Char) : Bool := cs ≠ [] && cs.all isDigit

def isExponent : List Char → Bool
  | [] => true
  | mark :: cs =>
    (mark = 'e' || mark = 'E') &&
      (match cs with
        | '+' :: digits => allDigits digits
        | '-' :: digits => allDigits digits
        | digits => allDigits digits)

def isFraction (cs : List Char) : Bool :=
  match cs with
  | '.' :: cs => cs.takeWhile isDigit ≠ [] && isExponent (cs.dropWhile isDigit)
  | cs => isExponent cs

/-- Whether a text is a number without its sign. No zero stands before other digits. -/
def isUnsigned (cs : List Char) : Bool :=
  match cs.takeWhile isDigit with
  | [] => false
  | '0' :: _ :: _ => false
  | _ => isFraction (cs.dropWhile isDigit)

def isNumber (cs : List Char) : Bool :=
  match cs with
  | '-' :: cs => isUnsigned cs
  | cs => isUnsigned cs

def number? (s : List Char) : Option (Json × ProperRest s) := do
  let rest ← ProperRest.pastWhile? isNumberPart s
  let written := s.takeWhile isNumberPart
  if isNumber written then return (.number (String.ofList written), rest) else none

def itemStart? (isFirst : Bool) (s : List Char) : Option (Rest s) :=
  if isFirst then some (Rest.all s) else (expect? ',' s).map (·.weaken)

mutual

def value? (s : List Char) : Option (Json × ProperRest s) := do
  let (c, t) ← next? s
  if c = '"' then
    let (text, rest) ← text? t.1
    return (.string (String.ofList text), t.andProper rest)
  else if c = '[' then
    let (items, rest) ← items? true t.1
    return (.array items, t.andProper rest)
  else if c = '\x7b' then
    let (entries, rest) ← entries? true t.1
    return (.object entries, t.andProper rest)
  else if c = 'n' then return (.null, t.andThen (← past? ['u', 'l', 'l'] t.1))
  else if c = 't' then return (.bool true, t.andThen (← past? ['r', 'u', 'e'] t.1))
  else if c = 'f' then return (.bool false, t.andThen (← past? ['a', 'l', 's', 'e'] t.1))
  else
    let (read, rest) ← number? (c :: t.1)
    return (read, t.insteadOf c rest)
termination_by 2 * s.length
decreasing_by
  · have := t.length_lt; omega
  · have := t.length_lt; omega

def items? (isFirst : Bool) (s : List Char) : Option (List Json × ProperRest s) :=
  match expect? ']' s with
  | some rest => some ([], rest)
  | none => do
    let t ← itemStart? isFirst s
    let (item, u) ← value? t.1
    let (later, rest) ← items? false u.1
    return (item :: later, t.andProper (u.andProper rest))
termination_by 2 * s.length + 1
decreasing_by
  · have := t.length_le; omega
  · have := t.length_le; have := u.length_lt; omega

def entries? (isFirst : Bool) (s : List Char) : Option (List (String × Json) × ProperRest s) :=
  match expect? '\x7d' s with
  | some rest => some ([], rest)
  | none => do
    let t ← itemStart? isFirst s
    let u ← expect? '"' t.1
    let (key, v) ← text? u.1
    let w ← expect? ':' v.1
    let (item, x) ← value? w.1
    let (later, rest) ← entries? false x.1
    return ((String.ofList key, item) :: later,
      t.andProper (u.andProper (v.andProper (w.andProper (x.andProper rest)))))
termination_by 2 * s.length + 1
decreasing_by
  · have := t.length_le; have := u.length_lt; have := v.length_lt; have := w.length_lt; omega
  · have := t.length_le; have := u.length_lt; have := v.length_lt; have := w.length_lt
    have := x.length_lt; omega

end

end Reader

def parse? (text : String) : Option Json := do
  let (json, rest) ← Reader.value? text.toList
  if rest.1.all Reader.isBlank then some json else none

end CommandReference.Json
