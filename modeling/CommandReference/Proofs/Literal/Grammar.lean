import CommandReference.Literal.Reader.Value
import Mathlib.Data.List.Infix
import Mathlib.Tactic.Common

/-! The grammar of literals that hold no function. A word and the value that it writes are
related by rules that only put words together; where one token ends and the next begins
is not said, and follows from the rules. -/
namespace CommandReference.Literal.Grammar
open Text Reader

/-- What may stand before a token: blanks and closed comments. -/
inductive Trivia : List Char → Prop where
  | nil : Trivia []
  | blank {c : Char} {later : List Char} : isBlank c = true → Trivia later → Trivia (c :: later)
  | line {body later : List Char} : '\n' ∉ body → Trivia later →
      Trivia ('/' :: '/' :: body ++ '\n' :: later)
  | block {body later : List Char} : ¬ ['*', '/'] <:+: body → Trivia later →
      Trivia ('/' :: '*' :: body ++ '*' :: '/' :: later)

/-- What may follow the whole literal: trivia, of which the end of the text may close the
last comment. -/
inductive Ending : List Char → Prop where
  | trivia {gap : List Char} : Trivia gap → Ending gap
  | comment {gap body : List Char} : Trivia gap → '\n' ∉ body → Ending (gap ++ '/' :: '/' :: body)

theorem Trivia.append {before after : List Char} (first : Trivia before)
    (second : Trivia after) : Trivia (before ++ after) := by
  induction first with
  | nil => exact second
  | blank blank _ ih => exact .blank blank ih
  | line inside _ ih =>
    rw [List.append_assoc]
    exact .line inside ih
  | block unclosed _ ih =>
    rw [List.append_assoc]
    exact .block unclosed ih

theorem Ending.append {before after : List Char} (second : Ending after)
    (first : Trivia before) : Ending (before ++ after) := by
  cases second with
  | trivia trivial => exact .trivia (first.append trivial)
  | comment trivial inside =>
    rw [← List.append_assoc]
    exact .comment (first.append trivial) inside

inductive Escape : Char → Char → Prop where
  | lineFeed : Escape 'n' '\n'
  | tab : Escape 't' '\t'
  | carriageReturn : Escape 'r' '\r'
  | null : Escape '0' '\x00'
  | itself {c : Char} : c ∉ ['n', 't', 'r', '0', 'u', '\n'] → Escape c c

/-- One item between two quotes, and the characters for which it stands. -/
inductive Piece (quote : Char) : List Char → List Char → Prop where
  | plain {c : Char} : c ∉ [quote, '\\', '\n'] → Piece quote [c] [c]
  | escape {c meant : Char} : Escape c meant → Piece quote ['\\', c] [meant]
  | continued : Piece quote ['\\', '\n'] []
  | unicode {digits : List Char} {meant : Char} : digits.length = 4 →
      charOfHex? digits = some meant → Piece quote ('\\' :: 'u' :: digits) [meant]
  | braced {digits : List Char} {meant : Char} : '}' ∉ digits →
      charOfHex? digits = some meant → Piece quote ('\\' :: 'u' :: '{' :: digits ++ ['}']) [meant]

/-- What stands between two quotes, and the text that it writes. -/
inductive Quoted (quote : Char) : List Char → List Char → Prop where
  | nil : Quoted quote [] []
  | cons {word body meant text : List Char} : Piece quote word meant → Quoted quote body text →
      Quoted quote (word ++ body) (meant ++ text)

def IsQuote (c : Char) : Prop := c = '\'' ∨ c = '"'

mutual

/-- What stands between two backticks, and whether it interpolates. -/
inductive Template : List Char → Bool → Prop where
  | nil : Template [] false
  | escape {c : Char} {body : List Char} {interpolated : Bool} : Template body interpolated →
      Template ('\\' :: c :: body) interpolated
  | interpolation {code body : List Char} {interpolated : Bool} : Interpolation code →
      Template body interpolated → Template ('$' :: '{' :: code ++ '}' :: body) true
  | plain {c : Char} {body : List Char} {interpolated : Bool} : c ∉ ['`', '\\'] →
      (c = '$' → body.head? ≠ some '{') → Template body interpolated →
      Template (c :: body) interpolated

/-- Code in which braces balance; strings and template strings in it are passed over. -/
inductive Interpolation : List Char → Prop where
  | nil : Interpolation []
  | string {quote : Char} {body text later : List Char} : IsQuote quote → Quoted quote body text →
      Interpolation later → Interpolation (quote :: body ++ quote :: later)
  | template {body later : List Char} {interpolated : Bool} : Template body interpolated →
      Interpolation later → Interpolation ('`' :: body ++ '`' :: later)
  | braces {inner later : List Char} : Interpolation inner → Interpolation later →
      Interpolation ('{' :: inner ++ '}' :: later)
  | plain {c : Char} {later : List Char} : c ∉ ['\'', '"', '`', '{', '}'] → Interpolation later →
      Interpolation (c :: later)

end

/-- A number: a digit or a sign, then letters, digits, dots and underscores, with a digit
in any case. -/
inductive Number : List Char → Prop where
  | unsigned {first : Char} {body : List Char} : isDigit first = true →
      (∀ c ∈ body, isNumberPart c = true) → Number (first :: body)
  | signed {sign : Char} {body : List Char} : sign = '-' ∨ sign = '+' →
      (∀ c ∈ body, isNumberPart c = true) → (∃ c ∈ body, isDigit c = true) → Number (sign :: body)

def Segment (word : List Char) : Prop := word ≠ [] ∧ ∀ c ∈ word, isIdentifierPart c = true

inductive Path : List Char → Prop where
  | segment {word : List Char} : Segment word → Path word
  | dotted {word later : List Char} : Segment word → Path later → Path (word ++ '.' :: later)

/-- Words that are no names. -/
def reserved : List String := ["true", "false", "null", "undefined", "async", "function", "new"]

/-- A path that can stand as a value or be called. -/
structure Name (word : List Char) : Prop where
  path : Path word
  start : ∀ c ∈ word.head?, isIdentifierStart c = true
  free : String.ofList word ∉ reserved

inductive Key : List Char → List Char → Prop where
  | identifier {first : Char} {later : List Char} : isIdentifierStart first = true →
      (∀ c ∈ later, isIdentifierPart c = true) → Key (first :: later) (first :: later)
  | quoted {quote : Char} {body text : List Char} : IsQuote quote → Quoted quote body text →
      Key (quote :: body ++ [quote]) text

/-- Items between brackets, with one comma between two of them and perhaps one at the end. -/
inductive Separated {α : Type} (Item : List Char → α → Prop) : List Char → List α → Prop where
  | nil {gap : List Char} : Trivia gap → Separated Item gap []
  | last {before word after : List Char} {item : α} : Trivia before → Item word item →
      Trivia after → Separated Item (before ++ word ++ after) [item]
  | cons {before word after later : List Char} {item : α} {items : List α} : Trivia before →
      Item word item → Trivia after → Separated Item later items →
      Separated Item (before ++ word ++ after ++ ',' :: later) (item :: items)

inductive Field (Item : List Char → Literal → Prop) : List Char → String × Literal → Prop where
  | mk {key name before after word : List Char} {content : Literal} : Key key name →
      Trivia before → Trivia after → Item word content →
      Field Item (key ++ before ++ ':' :: after ++ word) (String.ofList name, content)

/-- A word without trivia around it, and the value that it writes. -/
inductive Value : List Char → Literal → Prop where
  | object {body : List Char} {fields : List (String × Literal)} :
      Separated (Field Value) body fields →
      Value ('{' :: body ++ ['}']) (.object fields)
  | array {body : List Char} {items : List Literal} : Separated Value body items →
      Value ('[' :: body ++ [']']) (.array items)
  | string {quote : Char} {body text : List Char} : IsQuote quote → Quoted quote body text →
      Value (quote :: body ++ [quote]) (.string (String.ofList text))
  | template {raw : List Char} {interpolated : Bool} : Template raw interpolated →
      Value ('`' :: raw ++ ['`']) (.template (String.ofList raw) interpolated)
  | number {word : List Char} : Number word → Value word (.number (String.ofList word))
  | true : Value "true".toList (.bool true)
  | false : Value "false".toList (.bool false)
  | null : Value "null".toList .null
  | undefined : Value "undefined".toList .null
  | path {word : List Char} : Name word → Value word (.path (String.ofList word))
  | call {word gap body : List Char} {items : List Literal} : Name word → Trivia gap →
      Separated Value body items →
      Value (word ++ gap ++ '(' :: body ++ [')']) (.call (String.ofList word) items)
  | new {gap word after body : List Char} {items : List Literal} : Trivia gap → gap ≠ [] →
      Path word → Trivia after → Separated Value body items →
      Value ("new".toList ++ gap ++ word ++ after ++ '(' :: body ++ [')'])
        (.call (String.ofList word) items)

/-- A text that holds the value and nothing else. -/
inductive Text : List Char → Literal → Prop where
  | mk {gap word ending : List Char} {value : Literal} : Trivia gap → Value word value →
      Ending ending → Text (gap ++ word ++ ending) value

/-- A value in which no function occurs. -/
inductive CallbackFree : Literal → Prop where
  | object {fields : List (String × Literal)} : (∀ field ∈ fields, CallbackFree field.2) →
      CallbackFree (.object fields)
  | array {items : List Literal} : (∀ item ∈ items, CallbackFree item) → CallbackFree (.array items)
  | string {text : String} : CallbackFree (.string text)
  | template {raw : String} {interpolated : Bool} : CallbackFree (.template raw interpolated)
  | number {text : String} : CallbackFree (.number text)
  | bool {value : Bool} : CallbackFree (.bool value)
  | null : CallbackFree .null
  | path {name : String} : CallbackFree (.path name)
  | call {callee : String} {items : List Literal} : (∀ item ∈ items, CallbackFree item) →
      CallbackFree (.call callee items)

theorem Separated.forall_mem {α : Type} {Item : List Char → α → Prop} {Plain : α → Prop}
    {body : List Char} {items : List α} (separated : Separated Item body items)
    (plain : ∀ {word item}, Item word item → word.length ≤ body.length → Plain item) :
    ∀ item ∈ items, Plain item := by
  induction separated with
  | nil _ => simp
  | @last before word after item _ held _ =>
    rw [List.forall_mem_singleton]
    refine plain held ?_
    simp only [List.length_append]
    omega
  | @cons before word after later item items _ held _ _ ih =>
    rw [List.forall_mem_cons]
    constructor
    · refine plain held ?_
      simp only [List.length_append]
      omega
    · refine ih fun held short => plain held (short.trans ?_)
      simp only [List.length_append, List.length_cons]
      omega

/-- No word of the grammar writes a function. -/
theorem Value.callbackFree {word : List Char} {literal : Literal} (written : Value word literal) :
    CallbackFree literal := by
  induction length : word.length using Nat.strong_induction_on generalizing word literal with
  | _ n ih =>
    have inside {body : List Char} {items : List Literal} (shorter : body.length < n)
        (separated : Separated Value body items) : ∀ item ∈ items, CallbackFree item :=
      separated.forall_mem fun held short => ih _ (short.trans_lt shorter) held rfl
    cases written with
    | @object body fields separated =>
      have shorter : body.length < n := by
        simp only [← length, List.length_append, List.length_cons]
        omega
      refine .object (separated.forall_mem fun {word field} held short => ?_)
      cases held with
      | mk _ _ _ held =>
        refine ih _ ?_ held rfl
        simp only [List.length_append, List.length_cons] at short
        omega
    | @array body items separated =>
      refine .array (inside ?_ separated)
      simp only [← length, List.length_append, List.length_cons]
      omega
    | string _ _ => exact .string
    | template _ => exact .template
    | number _ => exact .number
    | true => exact .bool
    | false => exact .bool
    | null => exact .null
    | undefined => exact .null
    | path _ => exact .path
    | @call word gap body items _ _ separated =>
      refine .call (inside ?_ separated)
      simp only [← length, List.length_append, List.length_cons]
      omega
    | @new gap word after body items _ _ _ _ separated =>
      refine .call (inside ?_ separated)
      simp only [← length, List.length_append, List.length_cons]
      omega

end CommandReference.Literal.Grammar
