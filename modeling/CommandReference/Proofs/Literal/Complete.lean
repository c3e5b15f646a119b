import CommandReference.Proofs.Literal.Value

/-! The words of the grammar are read as the literals that they write, wherever they stand. -/
namespace CommandReference.Literal.Reader
open Text Grammar

theorem wordFrom_other {c : Char} (other : c ∉ ['{', '[', '\'', '"', '`', '(']) (r : List Char) :
    wordFrom (c :: r) =
      if c = '-' ∨ c = '+' ∨ isDigit c = true then
        (taken (number c r)).map fun found => (.number (String.ofList found.1), found.2)
      else if isIdentifierStart c = true then
        (taken (path (c :: r))).bind fun found => namedFrom (String.ofList found.1) found.2
      else none := by
  simp only [List.mem_cons, List.not_mem_nil, or_false, not_or] at other
  obtain ⟨brace, bracket, single, double, backtick, parenthesis⟩ := other
  rw [wordFrom, valueFrom, if_neg brace, if_neg bracket, if_neg (by simp [single, double]),
    if_neg backtick, if_neg parenthesis]

theorem mem_of_beginsNumber {c : Char} (begins : BeginsNumber c) : c ∈ "-+0123456789".toList := by
  rcases begins with rfl | rfl | digit
  · decide
  · decide
  · exact List.mem_cons_of_mem _ (List.mem_cons_of_mem _ (mem_digits digit))

private theorem wordFrom_number {c : Char} (begins : BeginsNumber c) (r : List Char) :
    wordFrom (c :: r) =
      (taken (number c r)).map fun found => (.number (String.ofList found.1), found.2) := by
  have all : ∀ c ∈ "-+0123456789".toList, c ∉ ['{', '[', '\'', '"', '`', '('] :=
    forall_mem_of_all (by decide)
  rw [wordFrom_other (all c (mem_of_beginsNumber begins))]
  exact if_pos begins

private theorem wordFrom_name {c : Char} (start : isIdentifierStart c = true) (r : List Char) :
    wordFrom (c :: r) =
      (taken (path (c :: r))).bind fun found => namedFrom (String.ofList found.1) found.2 := by
  have signs : ∀ c ∈ ['{', '[', '\'', '"', '`', '('], isIdentifierStart c = false :=
    forall_mem_of_all (by decide +kernel)
  have digits : ∀ c ∈ "-+0123456789".toList, isIdentifierStart c = false :=
    forall_mem_of_all (by decide +kernel)
  have other : c ∉ ['{', '[', '\'', '"', '`', '('] := by
    intro sign
    cases start.symm.trans (signs c sign)
  have notNumber : ¬ BeginsNumber c := by
    intro begins
    cases start.symm.trans (digits c (mem_of_beginsNumber begins))
  rw [wordFrom_other other]
  exact (if_neg notNumber).trans (if_pos start)

theorem exists_cons_of_path {word : List Char} (named : Path word) :
    ∃ c body, word = c :: body ∧ isIdentifierPart c = true := by
  have first {word : List Char} (segment : Segment word) :
      ∃ c body, word = c :: body ∧ isIdentifierPart c = true := by
    obtain ⟨c, body, rfl⟩ := List.exists_cons_of_ne_nil segment.1
    exact ⟨c, body, rfl, segment.2 c List.mem_cons_self⟩
  cases named with
  | segment segment => exact first segment
  | dotted segment _ =>
    obtain ⟨c, body, rfl, part⟩ := first segment
    exact ⟨c, _, rfl, part⟩

theorem exists_cons_of_name {word : List Char} (name : Name word) :
    ∃ c body, word = c :: body ∧ isIdentifierStart c = true := by
  obtain ⟨c, body, rfl, -⟩ := exists_cons_of_path name.path
  exact ⟨c, body, rfl, name.start c rfl⟩

/-- The characters with which a literal may begin. -/
def BeginsLiteral (c : Char) : Prop := IsToken c ∧ c ∉ ['}', ']', ')']

instance (c : Char) : Decidable (BeginsLiteral c) := inferInstanceAs (Decidable (_ ∧ _))

theorem beginsLiteral_of_isIdentifierStart {c : Char} (start : isIdentifierStart c = true) :
    BeginsLiteral c := by
  have closing : ∀ c ∈ ['}', ']', ')'], isIdentifierStart c = false :=
    forall_mem_of_all (by decide +kernel)
  refine ⟨isToken_of_isIdentifierPart (isIdentifierPart_of_isIdentifierStart start), ?_⟩
  intro closes
  cases start.symm.trans (closing c closes)

theorem beginsLiteral_of_beginsNumber {c : Char} (begins : BeginsNumber c) : BeginsLiteral c := by
  have digits : ∀ c ∈ "-+0123456789".toList, BeginsLiteral c := forall_mem_of_all (by decide)
  exact digits c (mem_of_beginsNumber begins)

/-- A word begins with a character that closes no bracket. -/
theorem exists_start {word : List Char} {literal : Literal} (value : Value word literal) :
    ∃ c body, word = c :: body ∧ IsToken c ∧ c ∉ ['}', ']', ')'] := by
  cases value with
  | object _ => exact ⟨'{', _, rfl, by decide, by decide⟩
  | array _ => exact ⟨'[', _, rfl, by decide, by decide⟩
  | string isQuote _ =>
    rcases isQuote with rfl | rfl
    · exact ⟨'\'', _, rfl, by decide, by decide⟩
    · exact ⟨'"', _, rfl, by decide, by decide⟩
  | template _ => exact ⟨'`', _, rfl, by decide, by decide⟩
  | number number =>
    obtain ⟨c, body, rfl, begins⟩ := exists_cons_of_number number
    exact ⟨c, body, rfl, beginsLiteral_of_beginsNumber begins⟩
  | true => exact ⟨'t', _, rfl, by decide, by decide⟩
  | false => exact ⟨'f', _, rfl, by decide, by decide⟩
  | null => exact ⟨'n', _, rfl, by decide, by decide⟩
  | undefined => exact ⟨'u', _, rfl, by decide, by decide⟩
  | path name =>
    obtain ⟨c, body, rfl, start⟩ := exists_cons_of_name name
    exact ⟨c, body, rfl, beginsLiteral_of_isIdentifierStart start⟩
  | call name _ _ =>
    obtain ⟨c, body, rfl, start⟩ := exists_cons_of_name name
    exact ⟨c, _, rfl, beginsLiteral_of_isIdentifierStart start⟩
  | new _ _ _ _ _ => exact ⟨'n', _, rfl, by decide, by decide⟩

/-- Words up to a length are read wherever they stand. -/
def Ready (bound : Nat) : Prop :=
  ∀ {word rest : List Char} {literal : Literal}, Value word literal → word.length ≤ bound →
    Follows rest → wordFrom (word ++ rest) = some (literal, rest)

theorem taken_value_append {bound : Nat} (ready : Ready bound) {gap word rest : List Char}
    {literal : Literal} (trivial : Trivia gap) (written : Value word literal)
    (short : word.length ≤ bound) (follows : Follows rest) :
    taken (value (gap ++ word ++ rest)) = some (literal, rest) := by
  have here := ready written short follows
  obtain ⟨c, body, rfl, token, -⟩ := exists_start written
  rw [List.append_assoc, List.cons_append, taken_value, left_trivia_gap trivial token]
  exact here

theorem taken_items_append {bound : Nat} (ready : Ready bound) {close : Char}
    (mark : close ∈ ['}', ']', ')']) {body : List Char} {entries : List Literal}
    (separated : Separated Value body entries) (short : body.length ≤ bound) (rest : List Char) :
    taken (items close (body ++ close :: rest)) = some (entries, rest) := by
  refine (readsItems_items close).append mark separated (fun {word item} written shorter => ?_) rest
  constructor
  · obtain ⟨c, later, same, token, other⟩ := exists_start written
    exact ⟨c, later, same, token, fun closes => other (closes ▸ mark)⟩
  · intro gap rest trivial follows
    exact taken_value_append ready trivial written (shorter.trans short) follows

/-- A field is read from its key on by reading its content. -/
theorem fieldFrom_key {gap key name before : List Char} (trivial : Trivia gap)
    (named : Key key name) (beforeTrivial : Trivia before) (t : List Char) :
    fieldFrom (gap ++ (key ++ (before ++ ':' :: t))) =
      (taken (value t)).map fun content => ((String.ofList name, content.1), content.2) := by
  obtain ⟨c, later, rfl, token, -, readsKey⟩ := taken_key_append named
  have stops : Stops (before ++ ':' :: t) :=
    stops_trivia beforeTrivial fun _ => Stops.cons (by decide +kernel) _
  have colon : left (expect ':' (before ++ ':' :: t)) = some t :=
    left_expect.2 (left_trivia_gap beforeTrivial (by decide) _)
  rw [fieldFrom, List.cons_append, left_trivia_gap trivial token, Option.bind_some]
  dsimp only
  rw [readsKey _ stops, Option.bind_some, colon, Option.bind_some]

private theorem taken_fields_append {bound : Nat} (ready : Ready bound) {body : List Char}
    {entries : List (String × Literal)} (separated : Separated (Field Value) body entries)
    (short : body.length ≤ bound) (rest : List Char) :
    taken (fields (body ++ '}' :: rest)) = some (entries, rest) := by
  refine readsItems_fields.append (by decide) separated (fun {word item} written shorter => ?_) rest
  cases written with
  | @mk key name before after content literal named beforeTrivial afterTrivial written =>
    constructor
    · obtain ⟨c, later, rfl, token, other, -⟩ := taken_key_append named
      exact ⟨c, _, rfl, token, other⟩
    · intro gap rest trivial follows
      have shape : gap ++ (key ++ before ++ ':' :: after ++ content) ++ rest =
          gap ++ (key ++ (before ++ ':' :: (after ++ content ++ rest))) := by simp
      have short : content.length ≤ bound := by
        simp only [List.length_append, List.length_cons] at shorter
        omega
      rw [shape, fieldFrom_key trivial named beforeTrivial,
        taken_value_append ready afterTrivial written short follows]
      rfl

theorem callFrom_append {bound : Nat} (ready : Ready bound) (callee : String) {body : List Char}
    {entries : List Literal} (separated : Separated Value body entries)
    (short : body.length ≤ bound) (rest : List Char) :
    callFrom callee (body ++ ')' :: rest) = some (.call callee entries, rest) := by
  rw [callFrom, taken_items_append ready (by decide) separated short]
  rfl

theorem wordFrom_path {word rest : List Char} (named : Path word)
    (start : ∀ c ∈ word.head?, isIdentifierStart c = true) (stops : Stops rest) :
    wordFrom (word ++ rest) = namedFrom (String.ofList word) rest := by
  have whole := taken_path_append named stops
  obtain ⟨c, body, rfl, -⟩ := exists_cons_of_path named
  rw [List.cons_append, wordFrom_name (start c rfl), ← List.cons_append, whole]
  rfl

theorem path_of_all {word : List Char} (parts : word.all isIdentifierPart = true)
    (some : word ≠ []) : Path word :=
  .segment ⟨some, List.all_eq_true.1 parts⟩

/-- A word of the language is no name. -/
theorem wordFrom_reserved {word rest : List Char} (parts : word.all isIdentifierPart = true)
    (start : word.head?.any isIdentifierStart = true) (stops : Stops rest) :
    wordFrom (word ++ rest) = namedFrom (String.ofList word) rest := by
  obtain ⟨c, first, starts⟩ := (Option.any_eq_true _ _).1 start
  refine wordFrom_path (path_of_all parts ?_) ?_ stops
  · rintro rfl
    cases first
  · intro d same
    cases first.symm.trans same
    exact starts

theorem plainFrom_follows {rest : List Char} (follows : Follows rest) (name : String)
    (t : List Char) :
    ((left (trivia rest)).bind fun u => plainFrom name t u) = some (.path name, t) := by
  rcases follows.left_trivia with all | ⟨c, r, mark, found⟩
  · rw [all]
    rfl
  · rw [found, Option.bind_some, plainFrom_path]
    · rintro r same
      cases same
      revert mark
      decide
    · rintro r same
      cases same
      revert mark
      decide

theorem take_raw (raw rest : List Char) :
    (raw ++ '`' :: rest).take ((raw ++ '`' :: rest).length - rest.length - 1) = raw := by
  have length : (raw ++ '`' :: rest).length - rest.length - 1 = raw.length := by
    simp only [List.length_append, List.length_cons]
    omega
  rw [length, List.take_left]

private theorem wordFrom_template {raw : List Char} {interpolated : Bool}
    (inside : Template raw interpolated) (rest : List Char) :
    wordFrom ('`' :: (raw ++ '`' :: rest)) =
      some (.template (String.ofList raw) interpolated, rest) := by
  have read := taken_template_append inside ('`' :: (raw ++ '`' :: rest)) rest
  refine (congrArg (Option.map _) read).trans ?_
  rw [Option.map_some, take_raw]

/-- A name and an opening parenthesis begin a call. -/
theorem wordFrom_opens {word gap : List Char} (name : Name word) (trivial : Trivia gap)
    (r : List Char) : wordFrom (word ++ (gap ++ '(' :: r)) = callFrom (String.ofList word) r := by
  have stops : Stops (gap ++ '(' :: r) :=
    stops_trivia trivial fun _ => Stops.cons (by decide +kernel) _
  have opens : left (trivia (gap ++ '(' :: r)) = some ('(' :: r) :=
    left_trivia_gap trivial (by decide) _
  have entered : left (expect '(' ('(' :: r)) = some r :=
    left_expect.2 (left_trivia_token (by decide) _)
  rw [wordFrom_path name.path name.start stops, namedFrom_of_notMem name.free, opens,
    Option.bind_some, plainFrom_opens _ _ rfl, entered, Option.bind_some]

theorem wordFrom_opens_new {gap word after : List Char} (trivial : Trivia gap) (some : gap ≠ [])
    (named : Path word) (afterTrivial : Trivia after) (r : List Char) :
    wordFrom ("new".toList ++ (gap ++ (word ++ (after ++ '(' :: r)))) =
      callFrom (String.ofList word) r := by
  have stops : Stops (gap ++ (word ++ (after ++ '(' :: r))) :=
    stops_trivia trivial fun empty => absurd empty some
  have callee : left (trivia (gap ++ (word ++ (after ++ '(' :: r)))) =
      .some (word ++ (after ++ '(' :: r)) := by
    obtain ⟨c, later, rfl, part⟩ := exists_cons_of_path named
    exact left_trivia_gap trivial (isToken_of_isIdentifierPart part) _
  have calleeStops : Stops (after ++ '(' :: r) :=
    stops_trivia afterTrivial fun _ => Stops.cons (by decide +kernel) _
  have entered : left (expect '(' (after ++ '(' :: r)) = .some r :=
    left_expect.2 (left_trivia_gap afterTrivial (by decide) _)
  rw [wordFrom_reserved (by decide +kernel) (by decide +kernel) stops]
  change (left (trivia _)).bind _ = _
  rw [callee, Option.bind_some, taken_path_append named calleeStops, Option.bind_some, entered,
    Option.bind_some]

theorem wordFrom_append {word : List Char} {literal : Literal} (value : Value word literal)
    {rest : List Char} (follows : Follows rest) :
    wordFrom (word ++ rest) = some (literal, rest) := by
  induction length : word.length using Nat.strong_induction_on generalizing word literal rest with
  | _ n ih =>
    have ready {bound : Nat} (shorter : bound < n) : Ready bound := fun written short follows =>
      ih _ (short.trans_lt shorter) written follows rfl
    cases value with
    | @object body entries separated =>
      have shorter : body.length < n := by
        simp only [← length, List.length_append, List.length_cons]
        omega
      have inside := taken_fields_append (ready shorter) separated le_rfl rest
      have shape : '{' :: body ++ ['}'] ++ rest = '{' :: (body ++ '}' :: rest) := by simp
      rw [shape]
      exact congrArg (Option.map _) inside
    | @array body entries separated =>
      have shorter : body.length < n := by
        simp only [← length, List.length_append, List.length_cons]
        omega
      have mark : ']' ∈ ['}', ']', ')'] := by decide
      have inside := taken_items_append (ready shorter) mark separated le_rfl rest
      have shape : '[' :: body ++ [']'] ++ rest = '[' :: (body ++ ']' :: rest) := by simp
      rw [shape]
      exact congrArg (Option.map _) inside
    | @string quote body text isQuote inside =>
      have read := taken_quoted_append (quote :: (body ++ quote :: rest)) isQuote inside rest
      have shape : quote :: body ++ [quote] ++ rest = quote :: (body ++ quote :: rest) := by simp
      rw [shape]
      rcases isQuote with rfl | rfl
      · exact congrArg (Option.map _) read
      · exact congrArg (Option.map _) read
    | @template raw interpolated inside =>
      have shape : '`' :: raw ++ ['`'] ++ rest = '`' :: (raw ++ '`' :: rest) := by simp
      rw [shape, wordFrom_template inside]
    | number number =>
      obtain ⟨c, body, rfl, begins⟩ := exists_cons_of_number number
      rw [List.cons_append, wordFrom_number begins, taken_number_append begins number follows.stops]
      rfl
    | true => exact wordFrom_reserved (by decide +kernel) (by decide +kernel) follows.stops
    | false => exact wordFrom_reserved (by decide +kernel) (by decide +kernel) follows.stops
    | null => exact wordFrom_reserved (by decide +kernel) (by decide +kernel) follows.stops
    | undefined => exact wordFrom_reserved (by decide +kernel) (by decide +kernel) follows.stops
    | path name =>
      rw [wordFrom_path name.path name.start follows.stops, namedFrom_of_notMem name.free]
      exact plainFrom_follows follows _ _
    | @call word gap body entries name trivial separated =>
      have shorter : body.length < n := by
        simp only [← length, List.length_append, List.length_cons]
        omega
      have shape : word ++ gap ++ '(' :: body ++ [')'] ++ rest =
          word ++ (gap ++ '(' :: (body ++ ')' :: rest)) := by simp
      rw [shape, wordFrom_opens name trivial, callFrom_append (ready shorter) _ separated le_rfl]
    | @new gap word after body entries trivial some named afterTrivial separated =>
      have shorter : body.length < n := by
        simp only [← length, List.length_append, List.length_cons]
        omega
      have shape : "new".toList ++ gap ++ word ++ after ++ '(' :: body ++ [')'] ++ rest =
          "new".toList ++ (gap ++ (word ++ (after ++ '(' :: (body ++ ')' :: rest)))) := by simp
      rw [shape, wordFrom_opens_new trivial some named afterTrivial,
        callFrom_append (ready shorter) _ separated le_rfl]

theorem ready (bound : Nat) : Ready bound := fun written _ follows =>
  wordFrom_append written follows

end CommandReference.Literal.Reader
