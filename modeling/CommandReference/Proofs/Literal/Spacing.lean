import CommandReference.Proofs.Literal.Parse
import CommandReference.Proofs.Literal.Tokens

/-! The blanks between the tokens of a literal mean nothing. This is so for literals without
comments, functions and interpolations, in which every token stands for itself. -/
namespace CommandReference.Literal
open CommandReference.Text Reader Grammar

/-- A value in which no function and no interpolation occurs. -/
inductive Static : Literal → Prop where
  | object {fields : List (String × Literal)} : (∀ field ∈ fields, Static field.2) →
      Static (.object fields)
  | array {items : List Literal} : (∀ item ∈ items, Static item) → Static (.array items)
  | string {text : String} : Static (.string text)
  | template {raw : String} : Static (.template raw false)
  | number {text : String} : Static (.number text)
  | bool {value : Bool} : Static (.bool value)
  | null : Static .null
  | path {name : String} : Static (.path name)
  | call {callee : String} {items : List Literal} : (∀ item ∈ items, Static item) →
      Static (.call callee items)

theorem Static.callbackFree {literal : Literal} (still : Static literal) :
    CallbackFree literal := by
  induction still with
  | object _ ih => exact .object ih
  | array _ ih => exact .array ih
  | string => exact .string
  | template => exact .template
  | number => exact .number
  | bool => exact .bool
  | null => exact .null
  | path => exact .path
  | call _ ih => exact .call ih

/-- A text that holds the beginning of no comment. -/
def Uncommented (cs : List Char) : Prop := ¬ ['/', '/'] <:+: cs ∧ ¬ ['/', '*'] <:+: cs

instance (cs : List Char) : Decidable (Uncommented cs) := inferInstanceAs (Decidable (_ ∧ _))

theorem Uncommented.of_infix {part cs : List Char} (bare : Uncommented cs)
    (inside : part <:+: cs) : Uncommented part :=
  ⟨fun line => bare.1 (line.trans inside), fun block => bare.2 (block.trans inside)⟩

abbrev Blanks (gap : List Char) : Prop := ∀ c ∈ gap, isBlank c = true

theorem blanks_of_trivia {gap : List Char} (trivial : Trivia gap) (bare : Uncommented gap) :
    Blanks gap := by
  induction trivial with
  | nil => exact List.forall_mem_nil _
  | @blank c later blank _ ih =>
    exact List.forall_mem_cons.2 ⟨blank, ih (bare.of_infix (List.suffix_cons c later).isInfix)⟩
  | @line body later _ _ _ => exact absurd ⟨[], body ++ '\n' :: later, rfl⟩ bare.1
  | @block body later _ _ _ => exact absurd ⟨[], body ++ '*' :: '/' :: later, rfl⟩ bare.2

theorem trivia_of_blanks {gap : List Char} (blank : Blanks gap) : Trivia gap := by
  induction gap with
  | nil => exact .nil
  | cons c gap ih =>
    rw [Blanks, List.forall_mem_cons] at blank
    exact .blank blank.1 (ih blank.2)

/-- A word that is one token, whatever bounds it. -/
inductive Leaf : List Char → Prop where
  | word {word : List Char} : word ≠ [] → (∀ c ∈ word, isWordPart c = true) → Leaf word
  | string {quote : Char} {body : List Char} : opensString quote = true → Inert quote body →
      Leaf (quote :: body ++ [quote])

theorem Leaf.tokens_append {word cs : List Char} (leaf : Leaf word) (bounds : Bounds cs) :
    tokens (word ++ cs) = word :: tokens cs := by
  cases leaf with
  | word some parts => exact tokens_word some parts bounds
  | string opens inert =>
    rw [List.append_assoc, List.singleton_append]
    exact tokens_string opens inert cs

theorem isWordPart_of_class {p : Char → Bool}
    (signs : ∀ c ∈ "{}[](),:'\"`".toList, p c = false)
    (blank : ∀ {c}, isBlank c = true → p c = false) {c : Char} (part : p c = true) :
    isWordPart c = true := by
  rcases character_cases c with white | mark | quote | word
  · cases part.symm.trans (blank white)
  · have member : c ∈ "{}[](),:'\"`".toList :=
      List.mem_append_left ['\'', '"', '`'] (of_decide_eq_true mark)
    cases part.symm.trans (signs c member)
  · have member : c ∈ "{}[](),:'\"`".toList :=
      List.mem_append_right ['{', '}', '[', ']', '(', ')', ',', ':'] (of_decide_eq_true quote)
    cases part.symm.trans (signs c member)
  · exact word

theorem isWordPart_of_isIdentifierPart {c : Char} (part : isIdentifierPart c = true) :
    isWordPart c = true :=
  isWordPart_of_class (forall_mem_of_all (by decide +kernel))
    (fun blank => (endsWord_of_isBlank blank).1) part

theorem isWordPart_of_isNumberPart {c : Char} (part : isNumberPart c = true) :
    isWordPart c = true :=
  isWordPart_of_class (forall_mem_of_all (by decide +kernel))
    (fun blank => (endsWord_of_isBlank blank).2) part

private theorem leaf_of_number {word : List Char} (number : Number word) : Leaf word := by
  cases number with
  | unsigned digit parts =>
    have all : ∀ c ∈ "0123456789".toList, isWordPart c = true :=
      forall_mem_of_all (by decide +kernel)
    refine .word (by simp) (List.forall_mem_cons.2 ⟨all _ (mem_digits digit), fun c member => ?_⟩)
    exact isWordPart_of_isNumberPart (parts c member)
  | signed sign parts _ =>
    refine .word (by simp) (List.forall_mem_cons.2 ⟨?_, fun c member => ?_⟩)
    · rcases sign with rfl | rfl
      · decide
      · decide
    · exact isWordPart_of_isNumberPart (parts c member)

theorem leaf_of_path {word : List Char} (named : Path word) : Leaf word := by
  have parts : ∀ c ∈ word, isWordPart c = true := by
    induction named with
    | segment segment => exact fun c member => isWordPart_of_isIdentifierPart (segment.2 c member)
    | dotted segment _ ih =>
      rw [List.forall_mem_append, List.forall_mem_cons]
      refine ⟨fun c member => isWordPart_of_isIdentifierPart (segment.2 c member), by decide, ih⟩
  obtain ⟨c, later, rfl, -⟩ := exists_cons_of_path named
  exact .word (by simp) parts

theorem leaf_of_reserved : Leaf "true".toList ∧ Leaf "false".toList ∧ Leaf "null".toList ∧
    Leaf "undefined".toList ∧ Leaf "new".toList := by
  have word {word : List Char} (some : word ≠ []) (parts : word.all isWordPart = true) :
      Leaf word := .word some (List.all_eq_true.1 parts)
  exact ⟨word (by decide) (by decide), word (by decide) (by decide), word (by decide) (by decide),
    word (by decide) (by decide), word (by decide) (by decide)⟩

private theorem opensString_of_isQuote {quote : Char} (isQuote : IsQuote quote) :
    opensString quote = true := by
  rcases isQuote with rfl | rfl
  · rfl
  · rfl

theorem exists_hexDigit_of_digits? {base number : Nat} {cs : List Char}
    (read : digits? base cs = some number) : ∀ c ∈ cs, ∃ digit, hexDigit? c = some digit := by
  rw [digits?] at read
  by_cases empty : cs.isEmpty = true
  · rw [if_pos empty] at read
    cases read
  · rw [if_neg empty] at read
    clear empty
    -- The number read so far differs from digit to digit.
    generalize 0 = start at read
    induction cs generalizing start with
    | nil => exact List.forall_mem_nil _
    | cons c cs ih =>
      rw [List.foldlM_cons] at read
      obtain ⟨next, step, later⟩ := Option.bind_eq_some_iff.1 read
      obtain ⟨digit, shown, -⟩ := Option.bind_eq_some_iff.1 step
      exact List.forall_mem_cons.2 ⟨⟨digit, shown⟩, ih next later⟩

private theorem exists_hexDigit_of_charOfHex? {digits : List Char} {meant : Char}
    (read : charOfHex? digits = some meant) :
    ∀ c ∈ digits, c = '+' ∨ ∃ digit, hexDigit? c = some digit := by
  obtain ⟨code, number, -⟩ := Option.bind_eq_some_iff.1 read
  unfold hexNumber? at number
  split at number
  · refine List.forall_mem_cons.2 ⟨.inl rfl, fun c member => .inr ?_⟩
    exact exists_hexDigit_of_digits? number c member
  · exact fun c member => .inr (exists_hexDigit_of_digits? number c member)

theorem inert_of_hex {quote : Char} (isQuote : IsQuote quote) {digits : List Char} {meant : Char}
    (read : charOfHex? digits = some meant) : Inert quote digits := by
  have parts := exists_hexDigit_of_charOfHex? read
  have other : ∀ sign ∈ [quote, '\\'], sign ≠ '+' ∧ hexDigit? sign = none := by
    rcases isQuote with rfl | rfl
    · exact forall_mem_of_all (by decide)
    · exact forall_mem_of_all (by decide)
  clear read
  induction digits with
  | nil => exact .nil
  | cons c digits ih =>
    rw [List.forall_mem_cons] at parts
    have differs : ∀ sign ∈ [quote, '\\'], c ≠ sign := by
      rintro sign member rfl
      obtain ⟨plus, none⟩ := other c member
      rcases parts.1 with same | ⟨digit, shown⟩
      · exact plus same
      · cases shown.symm.trans none
    exact .plain (differs _ (by simp)) (differs _ (by simp)) (ih parts.2)

private theorem inert_of_quoted {quote : Char} (isQuote : IsQuote quote) {body text : List Char}
    (quoted : Quoted quote body text) : Inert quote body := by
  induction quoted with
  | nil => exact .nil
  | cons piece _ ih =>
    refine Inert.append ?_ ih
    cases piece with
    | plain plain =>
      simp only [List.mem_cons, not_or] at plain
      exact .plain plain.1 plain.2.1 .nil
    | escape _ => exact .escape .nil
    | continued => exact .escape .nil
    | unicode _ read => exact .escape (inert_of_hex isQuote read)
    | braced _ read =>
      have brace : ∀ c ∈ ['{', '}'], c ≠ quote := by
        rcases isQuote with rfl | rfl
        · exact forall_mem_of_all (by decide)
        · exact forall_mem_of_all (by decide)
      refine .escape (.plain (brace _ (by simp)) (by decide) ((inert_of_hex isQuote read).append ?_))
      exact .plain (brace _ (by simp)) (by decide) .nil

theorem inert_of_template {body : List Char} {interpolated : Bool} :
    Template body interpolated → interpolated = false → Inert '`' body
  | .nil, _ => .nil
  | .escape inside, same => .escape (inert_of_template inside same)
  | .plain plain _ inside, same => by
    simp only [List.mem_cons, not_or] at plain
    exact .plain plain.1 plain.2.1 (inert_of_template inside same)

theorem leaf_of_quoted {quote : Char} (isQuote : IsQuote quote) {body text : List Char}
    (quoted : Quoted quote body text) : Leaf (quote :: body ++ [quote]) :=
  .string (opensString_of_isQuote isQuote) (inert_of_quoted isQuote quoted)

theorem leaf_of_key {word name : List Char} (named : Key word name) : Leaf word := by
  cases named with
  | identifier start parts =>
    refine .word (by simp) (List.forall_mem_cons.2 ⟨?_, fun c member => ?_⟩)
    · exact isWordPart_of_isIdentifierPart (isIdentifierPart_of_isIdentifierStart start)
    · exact isWordPart_of_isIdentifierPart (parts c member)
  | quoted isQuote quoted => exact leaf_of_quoted isQuote quoted

theorem Grammar.Separated.imp {α : Type} {Item Other : List Char → α → Prop} {body : List Char}
    {items : List α} (separated : Separated Item body items)
    (each : ∀ {word item}, Item word item → item ∈ items → word <:+: body → Other word item) :
    Separated Other body items := by
  induction separated with
  | nil trivial => exact .nil trivial
  | @last before word after item ahead held behind =>
    exact .last ahead (each held List.mem_cons_self ⟨before, after, rfl⟩) behind
  | @cons before word after later item items ahead held behind _ ih =>
    have tail : later <:+: before ++ word ++ after ++ ',' :: later :=
      ⟨before ++ word ++ after ++ [','], [], by simp⟩
    refine .cons ahead (each held List.mem_cons_self ⟨before, after ++ ',' :: later, by simp⟩) behind
      (ih fun held member inside => ?_)
    exact each held (List.mem_cons_of_mem _ member) (inside.trans tail)

theorem Grammar.Field.imp {Item Other : List Char → Literal → Prop} {word : List Char}
    {field : String × Literal} (held : Field Item word field)
    (each : ∀ {part}, Item part field.2 → part <:+: word → Other part field.2) :
    Field Other word field := by
  cases held with
  | @mk key name before after part value named ahead behind written =>
    refine .mk named ahead behind (each written ⟨key ++ before ++ ':' :: after, [], by simp⟩)

/-- What holds of single tokens and goes from the parts of a literal to the whole holds of every
literal without comments, functions and interpolations. -/
theorem static_induction {P : List Char → Literal → Prop}
    (leaf : ∀ {word literal}, Leaf word → Value word literal → P word literal)
    (object : ∀ {body fields}, Uncommented body → Separated (Field P) body fields →
      P ('{' :: body ++ ['}']) (.object fields))
    (array : ∀ {body items}, Uncommented body → Separated P body items →
      P ('[' :: body ++ [']']) (.array items))
    (call : ∀ {word gap body items}, Name word → Blanks gap → Uncommented body →
      Separated P body items →
      P (word ++ gap ++ '(' :: body ++ [')']) (.call (String.ofList word) items))
    (new : ∀ {gap word after body items}, Blanks gap → gap ≠ [] → Path word → Blanks after →
      Uncommented body → Separated P body items →
      P ("new".toList ++ gap ++ word ++ after ++ '(' :: body ++ [')'])
        (.call (String.ofList word) items))
    {word : List Char} {literal : Literal} (written : Value word literal) (still : Static literal)
    (bare : Uncommented word) : P word literal := by
  -- On the length, since the items of a list are reached through `Separated` only.
  induction length : word.length using Nat.strong_induction_on generalizing word literal with
  | _ n ih =>
    have each {body part : List Char} {item : Literal} (within : body <:+: word)
        (shorter : body.length < n) (held : Value part item) (still : Static item)
        (inside : part <:+: body) : P part item :=
      ih _ (inside.length_le.trans_lt shorter) held still (bare.of_infix (inside.trans within)) rfl
    have listed {body : List Char} {items : List Literal} (within : body <:+: word)
        (shorter : body.length < n) (stills : ∀ item ∈ items, Static item)
        (separated : Separated Value body items) : Separated P body items :=
      separated.imp fun held member inside => each within shorter held (stills _ member) inside
    have blanks {gap : List Char} (trivial : Trivia gap) (inside : gap <:+: word) : Blanks gap :=
      blanks_of_trivia trivial (bare.of_infix inside)
    cases written with
    | @object body fields separated =>
      cases still with
      | object stills =>
        have within : body <:+: '{' :: body ++ ['}'] := ⟨['{'], ['}'], rfl⟩
        have shorter : body.length < n := by
          simp only [← length, List.length_append, List.length_cons]
          omega
        refine object (bare.of_infix within) (separated.imp fun held member inside => ?_)
        exact held.imp fun held nested =>
          each within shorter held (stills _ member) (nested.trans inside)
    | @array body items separated =>
      cases still with
      | array stills =>
        have within : body <:+: '[' :: body ++ [']'] := ⟨['['], [']'], rfl⟩
        refine array (bare.of_infix within) (listed within ?_ stills separated)
        simp only [← length, List.length_append, List.length_cons]
        omega
    | string isQuote quoted => exact leaf (leaf_of_quoted isQuote quoted) (.string isQuote quoted)
    | template inside =>
      cases still with
      | template => exact leaf (.string (by decide) (inert_of_template inside rfl)) (.template inside)
    | number number => exact leaf (leaf_of_number number) (.number number)
    | true => exact leaf leaf_of_reserved.1 .true
    | false => exact leaf leaf_of_reserved.2.1 .false
    | null => exact leaf leaf_of_reserved.2.2.1 .null
    | undefined => exact leaf leaf_of_reserved.2.2.2.1 .undefined
    | path name => exact leaf (leaf_of_path name.path) (.path name)
    | @call word gap body items name trivial separated =>
      cases still with
      | call stills =>
        have within : body <:+: word ++ gap ++ '(' :: body ++ [')'] :=
          ⟨word ++ gap ++ ['('], [')'], by simp⟩
        have white := blanks trivial ⟨word, '(' :: body ++ [')'], by simp⟩
        refine call name white (bare.of_infix within) (listed within ?_ stills separated)
        simp only [← length, List.length_append, List.length_cons]
        omega
    | @new gap word after body items trivial some named behind separated =>
      cases still with
      | call stills =>
        have within : body <:+: "new".toList ++ gap ++ word ++ after ++ '(' :: body ++ [')'] :=
          ⟨"new".toList ++ gap ++ word ++ after ++ ['('], [')'], by simp⟩
        have white := blanks trivial
          ⟨"new".toList, word ++ after ++ '(' :: body ++ [')'], by simp⟩
        have whiteAfter := blanks behind
          ⟨"new".toList ++ gap ++ word, '(' :: body ++ [')'], by simp⟩
        refine new white some named whiteAfter (bare.of_infix within)
          (listed within ?_ stills separated)
        simp only [← length, List.length_append, List.length_cons]
        omega

/-- Where a text goes on with the tokens of a word, a word for the same item stands. -/
def Respaced {α : Type} (Item : List Char → α → Prop) (word : List Char) (item : α) : Prop :=
  ∀ ⦃s t : List Char⦄, Bounds s → tokens t = tokens (word ++ s) →
    ∃ gap other rest, t = gap ++ (other ++ rest) ∧ Blanks gap ∧ Item other item ∧
      tokens rest = tokens s

theorem Leaf.respaced {α : Type} {Item : List Char → α → Prop} {word : List Char} {item : α}
    (leaf : Leaf word) (held : Item word item) : Respaced Item word item := by
  intro s t bounds same
  rw [leaf.tokens_append bounds] at same
  obtain ⟨gap, rest, rfl, blanks, later, -⟩ := exists_of_tokens same
  exact ⟨gap, word, rest, rfl, blanks, held, later⟩

theorem exists_mark {gap s t : List Char} (blanks : Blanks gap) {c : Char} (mark : isMark c = true)
    (same : tokens t = tokens (gap ++ c :: s)) :
    ∃ other rest, t = other ++ c :: rest ∧ Blanks other ∧ tokens rest = tokens s := by
  rw [tokens_blanks blanks, tokens_mark _ mark] at same
  obtain ⟨other, rest, rfl, blanks, later, -⟩ := exists_of_tokens same
  exact ⟨other, rest, rfl, blanks, later⟩

theorem Bounds.cons {c : Char} (ends : isWordPart c = false) (cs : List Char) : Bounds (c :: cs) := by
  rintro d same
  cases same
  exact ends

theorem bounds_mark {gap : List Char} (blanks : Blanks gap) {c : Char} (mark : isMark c = true)
    (s : List Char) : Bounds (gap ++ c :: s) := by
  cases gap with
  | nil => exact .cons (by simp [isWordPart, mark]) s
  | cons b gap =>
    have blank := blanks b List.mem_cons_self
    exact .cons (by simp [isWordPart, blank]) _

theorem Grammar.Separated.respaced {α : Type} {Item : List Char → α → Prop} {body : List Char}
    {items : List α} (separated : Separated (Respaced Item) body items) (bare : Uncommented body)
    {close : Char} (mark : isMark close = true) {s t : List Char}
    (same : tokens t = tokens (body ++ close :: s)) :
    ∃ other rest, t = other ++ close :: rest ∧ Separated Item other items ∧
      tokens rest = tokens s := by
  induction separated generalizing t with
  | nil trivial =>
    obtain ⟨other, rest, rfl, blanks, later⟩ := exists_mark (blanks_of_trivia trivial bare) mark same
    exact ⟨other, rest, rfl, .nil (trivia_of_blanks blanks), later⟩
  | @last before word after item ahead held behind =>
    have white := blanks_of_trivia ahead (bare.of_infix ⟨[], word ++ after, by simp⟩)
    have whiteAfter := blanks_of_trivia behind (bare.of_infix ⟨before ++ word, [], by simp⟩)
    rw [List.append_assoc, List.append_assoc, tokens_blanks white] at same
    obtain ⟨gap, other, rest, rfl, blanks, written, later⟩ :=
      held (bounds_mark whiteAfter mark s) same
    obtain ⟨last, rest, rfl, blanksAfter, later⟩ := exists_mark whiteAfter mark later
    refine ⟨gap ++ other ++ last, rest, by simp, ?_, later⟩
    exact .last (trivia_of_blanks blanks) written (trivia_of_blanks blanksAfter)
  | @cons before word after later item items ahead held behind _ ih =>
    have white := blanks_of_trivia ahead (bare.of_infix ⟨[], word ++ after ++ ',' :: later, by simp⟩)
    have whiteAfter := blanks_of_trivia behind
      (bare.of_infix ⟨before ++ word, ',' :: later, by simp⟩)
    have tail : later <:+: before ++ word ++ after ++ ',' :: later :=
      ⟨before ++ word ++ after ++ [','], [], by simp⟩
    have comma : isMark ',' = true := by decide
    rw [List.append_assoc, List.append_assoc, List.append_assoc, tokens_blanks white] at same
    obtain ⟨gap, other, rest, rfl, blanks, written, following⟩ :=
      held (bounds_mark whiteAfter comma _) same
    obtain ⟨last, rest, rfl, blanksAfter, following⟩ := exists_mark whiteAfter comma following
    obtain ⟨body, rest, rfl, separated, following⟩ := ih (bare.of_infix tail) following
    refine ⟨gap ++ other ++ last ++ ',' :: body, rest, by simp, ?_, following⟩
    exact .cons (trivia_of_blanks blanks) written (trivia_of_blanks blanksAfter) separated

theorem Grammar.Field.respaced {Item : List Char → Literal → Prop} {word : List Char}
    {field : String × Literal} (held : Field (Respaced Item) word field)
    (bare : Uncommented word) : Respaced (Field Item) word field := by
  intro s t bounds same
  cases held with
  | @mk key name before after part value named ahead behind content =>
    have colon : isMark ':' = true := by decide
    have white := blanks_of_trivia ahead
      (bare.of_infix ⟨key, ':' :: after ++ part, by simp⟩)
    have whiteAfter := blanks_of_trivia behind
      (bare.of_infix ⟨key ++ before ++ [':'], part, by simp⟩)
    simp only [List.append_assoc, List.cons_append] at same
    rw [(leaf_of_key named).tokens_append (bounds_mark white colon _)] at same
    obtain ⟨gap, rest, rfl, blanks, later, -⟩ := exists_of_tokens same
    obtain ⟨first, rest, rfl, blanksBefore, later⟩ := exists_mark white colon later
    rw [tokens_blanks whiteAfter] at later
    obtain ⟨second, other, rest, rfl, blanksAfter, written, later⟩ := content bounds later
    refine ⟨gap, key ++ first ++ ':' :: second ++ other, rest, by simp, blanks, ?_, later⟩
    exact .mk named (trivia_of_blanks blanksBefore) (trivia_of_blanks blanksAfter) written

structure Trimmed (cs : List Char) : Prop where
  first : ∀ c ∈ cs.head?, isBlank c = false
  last : ∀ c ∈ cs.getLast?, isBlank c = false

theorem trimmed_of_braces {cs : List Char} (opens : cs.head? = some '{')
    (closes : cs.getLast? = some '}') : Trimmed cs := by
  constructor
  · intro c first
    cases opens.symm.trans first
    decide
  · intro c last
    cases closes.symm.trans last
    decide

theorem Trimmed.eq_of_blanks {gap word rest : List Char} (trimmed : Trimmed (gap ++ (word ++ rest)))
    (ahead : Blanks gap) (behind : Blanks rest) : gap = [] ∧ rest = [] := by
  constructor
  · cases gap with
    | nil => rfl
    | cons c gap => cases (ahead c List.mem_cons_self).symm.trans (trimmed.first c rfl)
  · rcases rest.eq_nil_or_concat with rfl | ⟨rest, c, rfl⟩
    · rfl
    · have last : c ∈ (gap ++ (word ++ rest.concat c)).getLast? := by
        rw [List.concat_eq_append, ← List.append_assoc, ← List.append_assoc]
        exact List.getLast?_concat
      cases (behind c (by simp)).symm.trans (trimmed.last c last)

theorem value_of_parse {cs : List Char} {literal : Literal}
    (read : parse (String.ofList cs) = .ok literal) (free : CallbackFree literal)
    (bare : Uncommented cs) (trimmed : Trimmed cs) : Value cs literal := by
  obtain ⟨rest, valueRead, ended⟩ := parse_eq_ok_iff_value.1 read
  rw [String.toList_ofList] at valueRead
  obtain ⟨gap, word, rfl, -, trivial, written⟩ := readsOnly _ le_rfl valueRead free
  have ending : Blanks rest := by
    have within : rest <:+: gap ++ word ++ rest := (List.suffix_append _ _).isInfix
    cases ending_of_left_trivia ended with
    | trivia trivial => exact blanks_of_trivia trivial (bare.of_infix within)
    | @comment before body _ _ =>
      have comment : ['/', '/'] <:+: before ++ '/' :: '/' :: body := ⟨before, body, by simp⟩
      exact absurd (comment.trans within) bare.1
  rw [List.append_assoc] at bare trimmed
  have white := blanks_of_trivia trivial (bare.of_infix (List.prefix_append _ _).isInfix)
  obtain ⟨rfl, rfl⟩ := trimmed.eq_of_blanks white ending
  rwa [List.nil_append, List.append_nil]

end CommandReference.Literal
