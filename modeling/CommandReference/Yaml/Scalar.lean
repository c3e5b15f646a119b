import CommandReference.Text.Digit
import CommandReference.Text.Part
import CommandReference.Yaml.Character

/-! YAML scalars for texts. A text that spans lines becomes a literal block, and others
stay plain where they can. Single quotes keep a text from being read as another sort of
value or as a part of the layout, and double quotes serve where a character has to be
escaped or blanks stand where the other styles would lose them. -/
namespace CommandReference.Yaml
open Text

def nullWords : List String := ["null", "Null", "NULL", "~"]

def boolWords : List String := ["true", "True", "TRUE", "false", "False", "FALSE"]

def marked? (cs : List Char) : Option Nat :=
  match cs with
  | '0' :: 'x' :: digits => digits? 16 digits
  | '0' :: 'o' :: digits => digits? 8 digits
  | '0' :: 'b' :: digits => digits? 2 digits
  | _ => none

def isMarkedInteger (cs : List Char) : Bool :=
  match cs with
  | '-' :: rest => (marked? rest).any (· ≤ 1 <<< 127)
  | '+' :: rest => (marked? rest).any (· < 1 <<< 128)
  | rest => (marked? rest).any (· < 1 <<< 128)

/-- Whether `digits · 10 ^ exponent` is below the point from which numbers round to
infinity in double precision, half a step above the largest one. -/
def isFinite (digits : Nat) (exponent : Int) : Bool :=
  let places := ((Nat.toDigits 10 digits).length : Int) + exponent
  if digits = 0 ∨ places < 300 then true
  else if 320 < places then false
  else
    let limit := (1 <<< 54 - 1) <<< 970
    if 0 ≤ exponent then digits * Nat.pow 10 exponent.toNat < limit
    else digits < limit * Nat.pow 10 (-exponent).toNat

def exponent? (cs : List Char) : Option Int :=
  match cs with
  | [] => some 0
  | mark :: rest =>
    if mark = 'e' ∨ mark = 'E' then
      match rest with
      | '-' :: digits => (digits? 10 digits).map (- Int.ofNat ·)
      | '+' :: digits => (digits? 10 digits).map Int.ofNat
      | digits => (digits? 10 digits).map Int.ofNat
    else none

/-- An unsigned decimal number in positional or exponent notation that is finite in
double precision. -/
def isDecimalNumber (cs : List Char) : Bool :=
  let whole := cs.takeWhile isDigit
  let (fraction, rest) := match cs.dropWhile isDigit with
    | '.' :: rest => (rest.takeWhile isDigit, rest.dropWhile isDigit)
    | rest => ([], rest)
  match digits? 10 (whole ++ fraction), exponent? rest with
  | some digits, some exponent => isFinite digits (exponent - fraction.length)
  | _, _ => false

def infinityWords : List String := [".inf", ".Inf", ".INF"]

def notANumberWords : List String := [".nan", ".NaN", ".NAN"]

def unsigned (cs : List Char) : List Char :=
  match cs with
  | '-' :: rest => rest
  | '+' :: rest => rest
  | rest => rest

def hasLeadingZero (cs : List Char) : Bool :=
  match unsigned cs with
  | '0' :: rest => rest ≠ [] && rest.all isDigit
  | _ => false

def isAmbiguous (text : String) : Bool :=
  let cs := text.toList
  text = "" || nullWords.contains text || boolWords.contains text ||
  isMarkedInteger cs || isDecimalNumber (unsigned cs) || hasLeadingZero cs ||
  infinityWords.contains (String.ofList (unsigned cs)) || notANumberWords.contains text

def startMarks : List Char :=
  ['#', ',', '[', ']', '\x7b', '\x7d', '&', '*', '!', '|', '>', '\'', '"', '%', '@', '`']

def startsWithMark : List Char → Bool
  | [] => false
  | c :: rest => startMarks.contains c || ((c = '?' || c = ':' || c = '-') && blankNext rest)

/-- Whether a colon before a blank, or a number sign after one, stands after the first
character; `before` is the character before the text. -/
def holdsMark (before : Char) : List Char → Bool
  | [] => false
  | c :: rest =>
    (c = ':' && blankNext rest) || (c = '#' && isBlankOrBreak before) || holdsMark c rest

def adjacent (first second : Char → Bool) : List Char → Bool
  | a :: b :: rest => (first a && second b) || adjacent first second (b :: rest)
  | _ => false

/-- Whether only double quotes keep the text. -/
def needsEscapes (cs : List Char) : Bool :=
  cs.any (!isPrintable ·) || adjacent isSpace isBreak cs

def allowsPlain (cs : List Char) : Bool :=
  !(cs.any isBreak || cs.head?.any isSpace || cs.getLast?.any isSpace ||
    startsWith "---" cs || startsWith "..." cs || startsWithMark cs ||
    (match cs with
      | [] => false
      | c :: rest => holdsMark c rest))

def allowsSingleQuotes (cs : List Char) : Bool := !adjacent isBreak isSpace cs

def allowsBlock (cs : List Char) : Bool := !cs.getLast?.any isSpace

inductive Style where
  | plain
  | singleQuoted
  | doubleQuoted
  | literal
  deriving Repr, DecidableEq

def styleOf (text : String) : Style :=
  let cs := text.toList
  if needsEscapes cs then .doubleQuoted
  else if cs.contains '\n' then
    if allowsBlock cs then .literal else .doubleQuoted
  else if !isAmbiguous text && allowsPlain cs then .plain
  else if allowsSingleQuotes cs then .singleQuoted
  else .doubleQuoted

def hex : Nat → Nat → List Char
  | 0, _ => []
  | width + 1, n => hex width (n / 16) ++ [hexDigit 'A' (n % 16)]

def shortEscapes : List (Char × Char) :=
  [('\x00', '0'), ('\x07', 'a'), ('\x08', 'b'), ('\t', 't'), ('\n', 'n'), ('\x0b', 'v'),
   ('\x0c', 'f'), ('\r', 'r'), ('\x1b', 'e'), ('"', '"'), ('\\', '\\'), ('\u0085', 'N'),
   ('\u2028', 'L'), ('\u2029', 'P')]

def escapeChar (c : Char) : List Char :=
  match shortEscapes.lookup c with
  | some letter => ['\\', letter]
  | none =>
    if isPrintable c then [c]
    else if c.toNat ≤ 0xff then '\\' :: 'x' :: hex 2 c.toNat
    else if c.toNat ≤ 0xffff then '\\' :: 'u' :: hex 4 c.toNat
    else '\\' :: 'U' :: hex 8 c.toNat

/-- Writes characters with the indentation before each line that holds something;
`fresh` says whether the writing stands at the start of a line. -/
def indentLines (column : Nat) (write : Char → List Char) (fresh : Bool) : List Char → List Char
  | [] => []
  | c :: rest =>
    if isBreak c then c :: indentLines column write true rest
    else
      (if fresh then List.replicate column ' ' else []) ++ write c ++
        indentLines column write false rest

/-- What the header of a literal block says: the indentation, where the text begins with
a blank, and whether line breaks at its end are dropped or kept. -/
def literalHeader (cs : List Char) : List Char :=
  (if cs.head?.any (fun c => isSpace c || isBreak c) then ['2'] else []) ++
  (match cs.reverse with
    | [] => ['-']
    | [last] => if isBreak last then ['+'] else ['-']
    | last :: previous :: _ =>
      if !isBreak last then ['-'] else if isBreak previous then ['+'] else [])

def scalar (column : Nat) (text : String) : List Char :=
  let cs := text.toList
  match styleOf text with
  | .plain => cs
  | .singleQuoted =>
    let writeChar := fun c => if c = '\'' then ['\'', '\''] else [c]
    let body := indentLines (column + 2) writeChar false cs
    let closing := if cs.getLast?.any isBreak then List.replicate (column + 2) ' ' else []
    '\'' :: body ++ closing ++ ['\'']
  | .doubleQuoted => '"' :: cs.flatMap escapeChar ++ ['"']
  | .literal =>
    '|' :: literalHeader cs ++ '\n' :: indentLines (column + 2) ([·]) true cs

end CommandReference.Yaml
