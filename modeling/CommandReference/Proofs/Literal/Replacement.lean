import CommandReference.Proofs.Literal.Locality
import CommandReference.Proofs.Literal.Parse

/-! One literal in the place of another. If reading a text comes to a place where one word
stands, and another word is read there up to the same rest, then with the other word the text
is read as the same literal except at that place. -/
namespace CommandReference.Literal

/-- A step into a literal: to a field of an object, or to an item of an array or of a call. -/
inductive Step where
  | field (index : Nat) (key : String)
  | item (index : Nat)
  deriving Repr, DecidableEq

/-- The literal to which steps lead. -/
def at? : List Step → Literal → Option Literal
  | [], literal => some literal
  | .field index key :: steps, object fields =>
    fields[index]?.bind fun field => if field.1 = key then at? steps field.2 else none
  | .item index :: steps, array items => items[index]?.bind (at? steps)
  | .item index :: steps, call _ items => items[index]?.bind (at? steps)
  | _ :: _, _ => none

/-- Another literal where the steps lead. -/
def replaceAt (new : Literal) : List Step → Literal → Literal
  | [], _ => new
  | .field index _ :: steps, object fields =>
    object (fields.modify index (Prod.map id (replaceAt new steps)))
  | .item index :: steps, array items => array (items.modify index (replaceAt new steps))
  | .item index :: steps, call callee items =>
    call callee (items.modify index (replaceAt new steps))
  | _ :: _, literal => literal

theorem modify_append_cons {α : Type} (before : List α) (a : α) (after : List α) (f : α → α) :
    (before ++ a :: after).modify before.length f = before ++ f a :: after := by
  rw [List.modify_eq_take_drop, List.take_left, List.drop_left, List.modifyHead_cons]

namespace Reader
open Text Grammar

section Sequence
variable {α : Type} {close : Char} {one : List Char → Option (α × List Char)}
  {read : List Char → Option (List α × List Char)}

/-- Reading items one after another comes to a text after the given ones. -/
inductive Passes (one : List Char → Option (α × List Char)) :
    List Char → List α → List Char → Prop where
  | here {s : List Char} : Passes one s [] s
  | next {s after w u : List Char} {item : α} {items : List α} :
      one s = some (item, after ++ ',' :: w) → Trivia after → Passes one w items u →
      Passes one s (item :: items) u

/-- No item begins with the closing bracket. -/
def Starts (close : Char) (one : List Char → Option (α × List Char)) : Prop :=
  ∀ {s : List Char} {found : α × List Char}, one s = some found →
    ∃ c r, left (trivia s) = some (c :: r) ∧ c ≠ close

theorem ReadsItems.exists_then (reads : ReadsItems close one read) (starts : Starts close one) :
    ∃ atEnd, ∀ {s behind : List Char} {item : α}, one s = some (item, behind) →
      read s = (left (separator close atEnd behind)).bind fun w =>
        (read w).map fun later => (item :: later.1, later.2) := by
  obtain ⟨atEnd, equation⟩ := reads
  refine ⟨atEnd, fun {s behind item} first => ?_⟩
  obtain ⟨c, r, start, apart⟩ := starts first
  have other : (c :: r).head? ≠ some close := fun same => apart (Option.some.inj same)
  rw [equation, start, Option.bind_some, if_neg other, first, Option.bind_some]

/-- What is read from an item on is read from an item. -/
theorem ReadsItems.exists_one (reads : ReadsItems close one read) {gap r rest : List Char}
    {c : Char} {items : List α} (trivial : Trivia gap) (token : IsToken c) (apart : c ≠ close)
    (found : read (gap ++ c :: r) = some (items, rest)) :
    ∃ item behind, one (gap ++ c :: r) = some (item, behind) := by
  obtain ⟨atEnd, equation⟩ := reads
  have other : (c :: r).head? ≠ some close := fun same => apart (Option.some.inj same)
  rw [equation, left_trivia_gap trivial token, Option.bind_some, if_neg other] at found
  obtain ⟨⟨item, behind⟩, first, -⟩ := Option.bind_eq_some_iff.1 found
  exact ⟨item, behind, first⟩

/-- Another item in the place of the first one. -/
theorem ReadsItems.replace (reads : ReadsItems close one read) (starts : Starts close one)
    {s s' behind rest : List Char} {item item' : α} {items : List α}
    (was : one s = some (item, behind)) (now : one s' = some (item', behind))
    (found : read s = some (items, rest)) :
    ∃ more, items = item :: more ∧ read s' = some (item' :: more, rest) := by
  obtain ⟨atEnd, step⟩ := reads.exists_then starts
  rw [step was] at found
  obtain ⟨w, separated, goesOn⟩ := Option.bind_eq_some_iff.1 found
  obtain ⟨⟨more, left⟩, later, same⟩ := Option.map_eq_some_iff.1 goesOn
  cases same
  refine ⟨more, rfl, ?_⟩
  rw [step now, separated, Option.bind_some, later]
  rfl

/-- The items that are passed are read whatever follows them. -/
theorem ReadsItems.passes (reads : ReadsItems close one read) (starts : Starts close one)
    (held : ∀ bound, Local bound one) {s u : List Char} {passed : List α}
    (passes : Passes one s passed u) :
    ∃ front, s = front ++ u ∧
      ∀ u', read (front ++ u') = (read u').map fun later => (passed ++ later.1, later.2) := by
  obtain ⟨atEnd, step⟩ := reads.exists_then starts
  induction passes with
  | here => exact ⟨[], rfl, fun u' => by simp⟩
  | @next s after w u item items first trivial _ ih =>
    obtain ⟨front, rfl, all⟩ := ih
    obtain ⟨before, c, word, rfl, -, -, reread⟩ := held _ le_rfl trivial (by simp) first
    refine ⟨before ++ c :: word ++ (after ++ ',' :: front), by simp, fun u' => ?_⟩
    have shape : before ++ c :: word ++ (after ++ ',' :: front) ++ u' =
        before ++ c :: word ++ (after ++ ',' :: (front ++ u')) := by simp
    have separated : left (separator close atEnd (after ++ ',' :: (front ++ u'))) =
        some (front ++ u') :=
      left_separator_comma atEnd (left_trivia_gap trivial (by decide) _)
    rw [shape, step (reread _), separated, Option.bind_some, all, Option.map_map]
    rfl

/-- Another item after the ones that are passed. -/
theorem ReadsItems.replace_passed (reads : ReadsItems close one read) (starts : Starts close one)
    (held : ∀ bound, Local bound one) {s u rest : List Char} {passed items : List α}
    (passes : Passes one s passed u) (found : read s = some (items, rest)) :
    ∃ front later, s = front ++ u ∧ read u = some (later, rest) ∧
      ∀ {item behind}, one u = some (item, behind) → ∃ more, items = passed ++ item :: more ∧
        ∀ {u' item'}, one u' = some (item', behind) →
          read (front ++ u') = some (passed ++ item' :: more, rest) := by
  obtain ⟨front, rfl, all⟩ := reads.passes starts held passes
  rw [all] at found
  obtain ⟨⟨later, left⟩, goesOn, same⟩ := Option.map_eq_some_iff.1 found
  cases same
  refine ⟨front, later, rfl, goesOn, fun {item behind} was => ?_⟩
  obtain ⟨more, rfl, -⟩ := reads.replace starts was was goesOn
  refine ⟨more, rfl, fun {u' item'} now => ?_⟩
  obtain ⟨more', same, again⟩ := reads.replace starts was now goesOn
  cases same
  rw [all, again]
  rfl

end Sequence

private theorem starts_value {close : Char} (mark : close ∈ ['}', ']', ')']) :
    Starts close fun s => taken (value s) := by
  intro s found read
  dsimp only at read
  rw [taken_value] at read
  obtain ⟨_ | ⟨c, r⟩, start, here⟩ := Option.bind_eq_some_iff.1 read
  · cases here
  · exact ⟨c, r, start, fun closes => (beginsLiteral_of_wordFrom here).2 (closes ▸ mark)⟩

private theorem starts_field : Starts '}' fieldFrom := by
  intro s found read
  rw [fieldFrom] at read
  obtain ⟨_ | ⟨c, r⟩, start, read⟩ := Option.bind_eq_some_iff.1 read
  · cases read
  obtain ⟨⟨name, behind⟩, keyRead, -⟩ := Option.bind_eq_some_iff.1 read
  obtain ⟨word, split, named⟩ := exists_of_key keyRead
  obtain ⟨d, body, rfl, -, apart, -⟩ := taken_key_append named
  cases split
  exact ⟨c, _, start, apart⟩

/-- What stands before the items of an array or of a call. -/
inductive Opening : List Char → Prop where
  | array : Opening ['[']
  | call {word gap : List Char} : Name word → Trivia gap → Opening (word ++ (gap ++ ['(']))
  | new {gap word after : List Char} : Trivia gap → gap ≠ [] → Path word → Trivia after →
      Opening ("new".toList ++ (gap ++ (word ++ (after ++ ['(']))))

/-- Reading a text comes to the literal to which steps lead when the given end of the text is
left. What stands before is read, or is a key or an opening of the grammar. -/
inductive Reaches : List Char → List Step → List Char → Prop where
  | here {gap u : List Char} : Trivia gap → Reaches (gap ++ u) [] u
  | field {gap r before key name between t u : List Char} {passed : List (String × Literal)}
      {steps : List Step} : Trivia gap →
      Passes fieldFrom r passed (before ++ (key ++ (between ++ ':' :: t))) → Trivia before →
      Key key name → Trivia between → Reaches t steps u →
      Reaches (gap ++ '{' :: r) (.field passed.length (String.ofList name) :: steps) u
  | item {gap opening r t u : List Char} {passed : List Literal} {steps : List Step} :
      Trivia gap → Opening opening → Passes (fun s => taken (value s)) r passed t →
      Reaches t steps u → Reaches (gap ++ (opening ++ r)) (.item passed.length :: steps) u

theorem taken_value_begins {gap r : List Char} {c : Char} (trivial : Trivia gap)
    (begins : BeginsLiteral c) : taken (value (gap ++ c :: r)) = wordFrom (c :: r) := by
  rw [taken_value, left_trivia_gap trivial begins.1]
  rfl

theorem taken_value_word {gap u : List Char} (trivial : Trivia gap) {found : Literal × List Char}
    (read : wordFrom u = some found) : taken (value (gap ++ u)) = some found := by
  cases u with
  | nil => cases read
  | cons c r => rw [taken_value_begins trivial (beginsLiteral_of_wordFrom read), read]

theorem Opening.exists_cons {opening : List Char} (opens : Opening opening) :
    ∃ c later, opening = c :: later ∧ BeginsLiteral c := by
  cases opens with
  | array => exact ⟨'[', [], rfl, by decide⟩
  | call name _ =>
    obtain ⟨c, body, rfl, start⟩ := exists_cons_of_name name
    exact ⟨c, _, rfl, beginsLiteral_of_isIdentifierStart start⟩
  | new _ _ _ _ => exact ⟨'n', _, rfl, by decide⟩

theorem Reaches.exists_cons {s u : List Char} {steps : List Step} (reached : Reaches s steps u)
    {found : Literal × List Char} (read : wordFrom u = some found) :
    ∃ gap c r, s = gap ++ c :: r ∧ Trivia gap ∧ BeginsLiteral c := by
  cases reached with
  | here trivial =>
    cases u with
    | nil => cases read
    | cons c r => exact ⟨_, c, r, rfl, trivial, beginsLiteral_of_wordFrom read⟩
  | field trivial _ _ _ _ _ => exact ⟨_, '{', _, rfl, trivial, by decide⟩
  | item trivial opens _ _ =>
    obtain ⟨c, later, rfl, begins⟩ := opens.exists_cons
    exact ⟨_, c, _, rfl, trivial, begins⟩

/-- What an opening begins. -/
theorem Opening.exists_items {opening : List Char} (opens : Opening opening) :
    ∃ close whole, close ∈ ['}', ']', ')'] ∧
      (∀ r, wordFrom (opening ++ r) =
        (taken (items close r)).map fun found => (whole found.1, found.2)) ∧
      (whole = Literal.array ∨ ∃ callee, whole = Literal.call callee) := by
  cases opens with
  | array => exact ⟨']', .array, by decide, fun r => rfl, .inl rfl⟩
  | @call word gap name trivial =>
    refine ⟨')', .call (String.ofList word), by decide, fun r => ?_, .inr ⟨_, rfl⟩⟩
    have shape : word ++ (gap ++ ['(']) ++ r = word ++ (gap ++ '(' :: r) := by simp
    rw [shape, wordFrom_opens name trivial, callFrom]
  | @new gap word after trivial some named afterTrivial =>
    refine ⟨')', .call (String.ofList word), by decide, fun r => ?_, .inr ⟨_, rfl⟩⟩
    have shape : "new".toList ++ (gap ++ (word ++ (after ++ ['(']))) ++ r =
        "new".toList ++ (gap ++ (word ++ (after ++ '(' :: r))) := by simp
    rw [shape, wordFrom_opens_new trivial some named afterTrivial, callFrom]

private theorem at?_whole {whole : List Literal → Literal}
    (kind : whole = array ∨ ∃ callee, whole = call callee) (index : Nat) (steps : List Step)
    (items : List Literal) :
    at? (.item index :: steps) (whole items) = items[index]?.bind (at? steps) := by
  rcases kind with rfl | ⟨callee, rfl⟩
  · rfl
  · rfl

theorem replaceAt_whole {whole : List Literal → Literal}
    (kind : whole = array ∨ ∃ callee, whole = call callee) (new : Literal) (index : Nat)
    (steps : List Step) (items : List Literal) :
    replaceAt new (.item index :: steps) (whole items) =
      whole (items.modify index (replaceAt new steps)) := by
  rcases kind with rfl | ⟨callee, rfl⟩
  · rfl
  · rfl

/-- With another word in its place, up to the same rest, the text is read as the same literal
with the other one where the steps lead. -/
theorem Reaches.replace {s u : List Char} {steps : List Step} (reached : Reaches s steps u)
    {old new : Literal} {u' behind : List Char} (was : wordFrom u = some (old, behind))
    (now : wordFrom u' = some (new, behind)) {literal : Literal} {rest : List Char}
    (read : taken (value s) = some (literal, rest)) :
    at? steps literal = some old ∧ ∃ front, s = front ++ u ∧
      taken (value (front ++ u')) = some (replaceAt new steps literal, rest) := by
  induction reached generalizing literal rest with
  | @here gap u trivial =>
    cases (taken_value_word trivial was).symm.trans read
    exact ⟨rfl, gap, rfl, taken_value_word trivial now⟩
  | @field gap r before key name between t u passed steps trivial passes beforeTrivial named
      betweenTrivial _ ih =>
    have object (r : List Char) : taken (value (gap ++ '{' :: r)) =
        (taken (fields r)).map fun found => (.object found.1, found.2) :=
      taken_value_begins trivial (by decide)
    have content (t : List Char) := fieldFrom_key beforeTrivial named betweenTrivial t
    rw [object] at read
    obtain ⟨⟨entries, left⟩, inside, same⟩ := Option.map_eq_some_iff.1 read
    cases same
    obtain ⟨front, later, rfl, first, swap⟩ := readsItems_fields.replace_passed starts_field
      (fun bound => local_field (local_value bound)) passes inside
    have fieldRead : ∃ field behind,
        fieldFrom (before ++ (key ++ (between ++ ':' :: t))) = some (field, behind) := by
      obtain ⟨c, body, rfl, token, apart, -⟩ := taken_key_append named
      exact readsItems_fields.exists_one beforeTrivial token apart first
    obtain ⟨field, behind', fieldRead⟩ := fieldRead
    obtain ⟨⟨held, after⟩, valueRead, same⟩ :=
      Option.map_eq_some_iff.1 ((content t).symm.trans fieldRead)
    cases same
    obtain ⟨found, inner, rfl, reread⟩ := ih was valueRead
    obtain ⟨more, rfl, replaced⟩ := swap fieldRead
    constructor
    · simp [at?, found]
    refine ⟨gap ++ '{' :: (front ++ (before ++ (key ++ (between ++ ':' :: inner)))), by simp, ?_⟩
    have again : fieldFrom (before ++ (key ++ (between ++ ':' :: (inner ++ u')))) =
        some ((String.ofList name, replaceAt new steps held), after) := by
      rw [content, reread]
      rfl
    have shape : gap ++ '{' :: (front ++ (before ++ (key ++ (between ++ ':' :: inner)))) ++ u' =
        gap ++ '{' :: (front ++ (before ++ (key ++ (between ++ ':' :: (inner ++ u'))))) := by simp
    rw [shape, object, replaced again, Option.map_some, replaceAt, modify_append_cons]
    rfl
  | @item gap opening r t u passed steps trivial opens passes reached ih =>
    obtain ⟨close, whole, mark, opened, kind⟩ := opens.exists_items
    obtain ⟨c, later, rfl, begins⟩ := opens.exists_cons
    have sequence (r : List Char) : taken (value (gap ++ (c :: later ++ r))) =
        (taken (items close r)).map fun found => (whole found.1, found.2) := by
      rw [← opened]
      exact taken_value_begins trivial begins
    rw [sequence] at read
    obtain ⟨⟨entries, left⟩, inside, same⟩ := Option.map_eq_some_iff.1 read
    cases same
    obtain ⟨front, others, rfl, first, swap⟩ := (readsItems_items close).replace_passed
      (starts_value mark) local_value passes inside
    have valueRead : ∃ held behind, taken (value t) = some (held, behind) := by
      obtain ⟨before, d, r, rfl, beforeTrivial, begins⟩ := reached.exists_cons was
      exact (readsItems_items close).exists_one beforeTrivial begins.1
        (fun closes => begins.2 (closes ▸ mark)) first
    obtain ⟨held, behind', valueRead⟩ := valueRead
    obtain ⟨found, inner, rfl, reread⟩ := ih was valueRead
    obtain ⟨more, rfl, replaced⟩ := swap valueRead
    constructor
    · simp [at?_whole kind, found]
    refine ⟨gap ++ (c :: later ++ (front ++ inner)), by simp, ?_⟩
    have shape : gap ++ (c :: later ++ (front ++ inner)) ++ u' =
        gap ++ (c :: later ++ (front ++ (inner ++ u'))) := by simp
    rw [shape, sequence, replaced reread, Option.map_some, replaceAt_whole kind,
      modify_append_cons]

end Reader

end CommandReference.Literal
