import CommandReference.Proofs.Literal.Complete

/-! The texts of functions. The reader of functions passes over strings, comments and brackets
and stops at a comma or a closing bracket outside all brackets; what it passes over is told
here by rules, and every text of the rules that begins as a function does is read as one. -/
namespace CommandReference.Literal

namespace Grammar
open CommandReference.Text Reader

/-- A character of a function that is passed over alone. -/
def IsPlain (c : Char) : Prop := c ∉ ['\'', '"', '`', '(', '[', '{', ')', ']', '}', ',']

instance (c : Char) : Decidable (IsPlain c) := inferInstanceAs (Decidable (¬ _))

/-- Text inside `depth` brackets that closes them all. Brackets of the three kinds count
alike, and no comma stands outside all of them. -/
inductive Code : Nat → List Char → Prop where
  | nil : Code 0 []
  | string {depth : Nat} {quote : Char} {body text later : List Char} : IsQuote quote →
      Quoted quote body text → Code depth later → Code depth (quote :: body ++ quote :: later)
  | template {depth : Nat} {body later : List Char} {interpolated : Bool} :
      Template body interpolated → Code depth later → Code depth ('`' :: body ++ '`' :: later)
  | line {depth : Nat} {body later : List Char} : '\n' ∉ body → Code depth later →
      Code depth ('/' :: '/' :: body ++ '\n' :: later)
  | block {depth : Nat} {body later : List Char} : ¬ ['*', '/'] <:+: body → Code depth later →
      Code depth ('/' :: '*' :: body ++ '*' :: '/' :: later)
  | opening {depth : Nat} {c : Char} {later : List Char} : opensBracket c = true →
      Code (depth + 1) later → Code depth (c :: later)
  | closing {depth : Nat} {c : Char} {later : List Char} : closesBracket c = true →
      Code depth later → Code (depth + 1) (c :: later)
  | comma {depth : Nat} {later : List Char} : Code (depth + 1) later →
      Code (depth + 1) (',' :: later)
  | plain {depth : Nat} {c : Char} {later : List Char} : IsPlain c →
      (c = '/' → later.head? ≠ some '/' ∧ later.head? ≠ some '*') → Code depth later →
      Code depth (c :: later)

/-- The text of a function: it begins with a parenthesis, with a word that announces a
function, or with a name before an arrow. -/
inductive FunctionText : List Char → Prop where
  | parenthesis {later : List Char} : Code 0 ('(' :: later) → FunctionText ('(' :: later)
  | announced {word later : List Char} : word ∈ ["async".toList, "function".toList] →
      (∀ c ∈ later.head?, isIdentifierPart c = false ∧ c ≠ '.') → Code 0 (word ++ later) →
      FunctionText (word ++ later)
  | arrow {word gap later : List Char} : Name word → Trivia gap →
      Code 0 (word ++ (gap ++ '=' :: '>' :: later)) →
      FunctionText (word ++ (gap ++ '=' :: '>' :: later))

theorem isPlain_of_class {p : Char → Bool}
    (signs : ∀ c ∈ ['\'', '"', '`', '(', '[', '{', ')', ']', '}', ',', '/'], p c = false) {c : Char}
    (held : p c = true) : IsPlain c ∧ c ≠ '/' := by
  constructor
  · intro sign
    cases held.symm.trans (signs c (List.mem_append_left ['/'] sign))
  · rintro rfl
    cases held.symm.trans (signs '/' (by decide))

theorem isPlain_of_isIdentifierPart {c : Char} (part : isIdentifierPart c = true) :
    IsPlain c ∧ c ≠ '/' :=
  isPlain_of_class (forall_mem_of_all (by decide +kernel)) part

theorem isPlain_of_isBlank {c : Char} (blank : isBlank c = true) : IsPlain c ∧ c ≠ '/' :=
  isPlain_of_class (forall_mem_of_all (by decide +kernel)) blank

theorem mem_of_opensBracket {c : Char} (opens : opensBracket c = true) : c ∈ ['(', '[', '{'] := by
  simpa [opensBracket, or_assoc] using opens

theorem mem_of_closesBracket {c : Char} (closes : closesBracket c = true) :
    c ∈ [')', ']', '}'] := by
  simpa [closesBracket, or_assoc] using closes

theorem not_isPlain_of_brackets {c : Char}
    (bracket : opensBracket c = true ∨ closesBracket c = true) : ¬ IsPlain c := by
  have all : ∀ c ∈ ['(', '[', '{', ')', ']', '}'], ¬ IsPlain c :=
    forall_mem_of_all (by decide)
  rcases bracket with opens | closes
  · exact all c (List.mem_append_left [')', ']', '}'] (mem_of_opensBracket opens))
  · exact all c (List.mem_append_right ['(', '[', '{'] (mem_of_closesBracket closes))

theorem IsPlain.signs {c : Char} (plain : IsPlain c) : c ∉ ['\'', '"', '`'] ∧
    ¬ opensBracket c = true ∧ ¬ closesBracket c = true ∧ c ≠ ',' := by
  refine ⟨fun quote => plain (List.mem_append_left _ quote),
    fun opens => not_isPlain_of_brackets (.inl opens) plain,
    fun closes => not_isPlain_of_brackets (.inr closes) plain, ?_⟩
  rintro rfl
  exact absurd plain (by decide)

/-- Code that begins with a plain character. -/
theorem Code.of_plain {depth : Nat} {c : Char} {later : List Char} (plain : IsPlain c)
    (other : c ≠ '/') (code : Code depth (c :: later)) : Code depth later := by
  generalize whole : c :: later = s at code
  cases code with
  | nil => cases whole
  | string isQuote _ _ =>
    cases whole
    rcases isQuote with rfl | rfl
    · exact absurd plain (by decide)
    · exact absurd plain (by decide)
  | template _ _ =>
    cases whole
    exact absurd plain (by decide)
  | line _ _ =>
    cases whole
    exact absurd rfl other
  | block _ _ =>
    cases whole
    exact absurd rfl other
  | opening opens _ =>
    cases whole
    exact absurd plain (not_isPlain_of_brackets (.inl opens))
  | closing closes _ =>
    cases whole
    exact absurd plain (not_isPlain_of_brackets (.inr closes))
  | comma _ =>
    cases whole
    exact absurd plain (by decide)
  | plain _ _ code =>
    cases whole
    exact code

private theorem Code.of_parenthesis {depth : Nat} {later : List Char}
    (code : Code depth ('(' :: later)) :
    Code (depth + 1) later := by
  generalize whole : '(' :: later = s at code
  cases code with
  | nil => cases whole
  | string isQuote _ _ =>
    cases whole
    rcases isQuote with single | double
    · cases single
    · cases double
  | template _ _ => cases whole
  | line _ _ => cases whole
  | block _ _ => cases whole
  | opening _ code =>
    cases whole
    exact code
  | closing closes _ =>
    cases whole
    exact absurd closes (by decide)
  | comma _ => cases whole
  | plain plain _ _ =>
    cases whole
    exact absurd plain (by decide)

theorem Path.isPlain {word : List Char} (named : Path word) :
    ∀ c ∈ word, IsPlain c ∧ c ≠ '/' := by
  induction named with
  | segment segment => exact fun c member => isPlain_of_isIdentifierPart (segment.2 c member)
  | dotted segment _ ih =>
    rw [List.forall_mem_append, List.forall_mem_cons]
    exact ⟨fun c member => isPlain_of_isIdentifierPart (segment.2 c member), by decide, ih⟩

/-- A path is passed over character by character. -/
theorem Code.of_path {word : List Char} (named : Path word) {depth : Nat} {later : List Char}
    (code : Code depth (word ++ later)) : Code depth later := by
  have plain := named.isPlain
  clear named
  induction word with
  | nil => exact code
  | cons c word ih =>
    rw [List.forall_mem_cons] at plain
    exact ih (code.of_plain plain.1.1 plain.1.2) plain.2

end Grammar

namespace Reader
open Text Grammar

theorem left_callback_nil (depth : Nat) :
    left (callback depth []) = if depth = 0 then some [] else none := by
  rw [callback]
  exact seen_ite _ _ _ _

theorem left_callback_string {quote : Char} (isQuote : IsQuote quote) (depth : Nat)
    (r : List Char) :
    left (callback depth (quote :: r)) =
      (taken (quoted (quote :: r) quote r)).bind fun t => left (callback depth t.2) := by
  rw [callback]
  refine (congrArg left (if_pos isQuote)).trans ?_
  refine seen_bind fun t => ?_
  exact (seen_map fun rest => rfl).trans Option.map_id'

theorem left_callback_template (depth : Nat) (r : List Char) :
    left (callback depth ('`' :: r)) =
      (taken (template ('`' :: r) r)).bind fun t => left (callback depth t.2) := by
  rw [callback]
  refine seen_bind fun t => ?_
  exact (seen_map fun rest => rfl).trans Option.map_id'

/-- What the reader of functions does at a character that begins no string and no comment. -/
def codeFrom (depth : Nat) (c : Char) (r : List Char) : Option (List Char) :=
  if opensBracket c then left (callback (depth + 1) r)
  else if depth = 0 ∧ (closesBracket c ∨ c = ',') then some (c :: r)
  else if closesBracket c then left (callback (depth - 1) r)
  else left (callback depth r)

theorem left_callback_other {c : Char} (other : c ∉ ['\'', '"', '`']) (depth : Nat)
    (r : List Char) :
    left (callback depth (c :: r)) = (leftComment (c :: r)).bind fun found =>
      found.elim (codeFrom depth c r) fun t => left (callback depth t) := by
  simp only [List.mem_cons, List.not_mem_nil, or_false, not_or] at other
  obtain ⟨single, double, backtick⟩ := other
  rw [callback, if_neg (by simp [single, double]), if_neg backtick]
  refine seen_bind fun found => ?_
  cases found with
  | some t => exact (seen_map fun rest => rfl).trans Option.map_id'
  | none =>
    refine (seen_ite _ _ _ _).trans ?_
    congr 1
    · exact (seen_map fun rest => rfl).trans Option.map_id'
    refine (seen_ite _ _ _ _).trans ?_
    congr 1
    refine (seen_ite _ _ _ _).trans ?_
    congr 1
    · exact (seen_map fun rest => rfl).trans Option.map_id'
    · exact (seen_map fun rest => rfl).trans Option.map_id'

/-- Where the reader of functions stops. -/
def EndsCode (c : Char) : Prop := closesBracket c = true ∨ c = ','

theorem EndsCode.mem {c : Char} (ends : EndsCode c) : c ∈ [',', '}', ']', ')'] := by
  rcases ends with closes | rfl
  · have bracket := mem_of_closesBracket closes
    simp only [List.mem_cons, List.not_mem_nil, or_false] at bracket ⊢
    rcases bracket with rfl | rfl | rfl
    · simp
    · simp
    · simp
  · simp

theorem leftComment_of_ne_slash {c : Char} (other : c ≠ '/') (r : List Char) :
    leftComment (c :: r) = some none := by
  refine leftComment_of_ne ?_ ?_
  · rintro ⟨later, same⟩
    exact other (List.cons.inj same).1.symm
  · rintro ⟨later, same⟩
    exact other (List.cons.inj same).1.symm

theorem leftComment_slash {t : List Char} (line : t.head? ≠ some '/')
    (block : t.head? ≠ some '*') : leftComment ('/' :: t) = some none := by
  refine leftComment_of_ne ?_ ?_
  · rintro ⟨later, same⟩
    rw [← (List.cons.inj same).2] at line
    exact line rfl
  · rintro ⟨later, same⟩
    rw [← (List.cons.inj same).2] at block
    exact block rfl

private theorem exists_of_leftComment {s t : List Char} (found : leftComment s = some (some t)) :
    (∃ r, s = '/' :: '/' :: r ∧ t = r.dropWhile (· != '\n')) ∨
      ∃ body, s = '/' :: '*' :: body ++ '*' :: '/' :: t ∧ ¬ ['*', '/'] <:+: body := by
  by_cases line : ['/', '/'] <+: s
  · obtain ⟨r, rfl⟩ := line
    rw [List.cons_append, List.cons_append, leftComment_line] at found
    cases found
    exact .inl ⟨r, rfl, rfl⟩
  · by_cases block : ['/', '*'] <+: s
    · obtain ⟨r, rfl⟩ := block
      have after : (afterBlockComment r).map Subtype.val = some t := by
        obtain ⟨rest, closed, same⟩ := Option.map_eq_some_iff.1 ((leftComment_block r).symm.trans found)
        rw [closed]
        exact same
      obtain ⟨body, rfl, unclosed⟩ := exists_of_afterBlockComment after
      exact .inr ⟨body, rfl, unclosed⟩
    · cases (leftComment_of_ne line block).symm.trans found

theorem left_callback_code {c : Char} (other : c ∉ ['\'', '"', '`']) {r : List Char}
    (noComment : leftComment (c :: r) = some none) (depth : Nat) :
    left (callback depth (c :: r)) = codeFrom depth c r := by
  rw [left_callback_other other, noComment]
  rfl

section Brackets
variable {c : Char} (depth : Nat) (r : List Char)

theorem left_callback_opening (opens : opensBracket c = true) :
    left (callback depth (c :: r)) = left (callback (depth + 1) r) := by
  have all : ∀ c ∈ ['(', '[', '{'], c ∉ ['\'', '"', '`'] ∧ c ≠ '/' := forall_mem_of_all (by decide)
  obtain ⟨other, slash⟩ := all c (mem_of_opensBracket opens)
  rw [left_callback_code other (leftComment_of_ne_slash slash r), codeFrom, if_pos opens]

theorem left_callback_mark (mark : EndsCode c) :
    left (callback depth (c :: r)) =
      if depth = 0 then some (c :: r)
      else if closesBracket c then left (callback (depth - 1) r)
      else left (callback depth r) := by
  have all : ∀ c ∈ [',', '}', ']', ')'],
      c ∉ ['\'', '"', '`'] ∧ c ≠ '/' ∧ opensBracket c = false :=
    forall_mem_of_all (by decide)
  obtain ⟨other, slash, opens⟩ := all c mark.mem
  rw [left_callback_code other (leftComment_of_ne_slash slash r), codeFrom, if_neg (by simp [opens])]
  congr 1
  exact propext (and_iff_left mark)

theorem left_callback_plain (plain : IsPlain c) (noComment : leftComment (c :: r) = some none) :
    left (callback depth (c :: r)) = left (callback depth r) := by
  obtain ⟨other, opens, closes, comma⟩ := plain.signs
  rw [left_callback_code other noComment, codeFrom, if_neg opens,
    if_neg fun stop => stop.2.elim closes comma, if_neg closes]

end Brackets

theorem left_callback_line {body : List Char} (inside : '\n' ∉ body) (depth : Nat)
    (r : List Char) :
    left (callback depth ('/' :: '/' :: (body ++ '\n' :: r))) = left (callback depth r) := by
  rw [left_callback_other (by decide), leftComment_line,
    dropWhile_run (bne_of_notMem inside) (by simp), Option.bind_some, Option.elim_some,
    left_callback_plain depth _ (by decide) (leftComment_of_ne_slash (by decide) _)]

theorem left_callback_block {body : List Char} (unclosed : ¬ ['*', '/'] <:+: body) (depth : Nat)
    (r : List Char) :
    left (callback depth ('/' :: '*' :: (body ++ '*' :: '/' :: r))) = left (callback depth r) := by
  obtain ⟨rest, closed, same⟩ := Option.map_eq_some_iff.1 (afterBlockComment_append unclosed r)
  rw [left_callback_other (by decide), leftComment_block, closed, Option.map_some,
    Option.bind_some, Option.elim_some, same]

theorem left_callback_append {depth : Nat} {code : List Char} (held : Code depth code) {c : Char}
    (ends : EndsCode c) (r : List Char) :
    left (callback depth (code ++ c :: r)) = some (c :: r) := by
  induction held with
  | nil => exact (left_callback_mark 0 r ends).trans (if_pos rfl)
  | @string depth quote body text later isQuote inside _ ih =>
    have shape : quote :: body ++ quote :: later ++ c :: r =
        quote :: (body ++ quote :: (later ++ c :: r)) := by simp
    rw [shape, left_callback_string isQuote, taken_quoted_append _ isQuote inside]
    exact ih
  | @template depth body later interpolated inside _ ih =>
    have shape : '`' :: body ++ '`' :: later ++ c :: r =
        '`' :: (body ++ '`' :: (later ++ c :: r)) := by simp
    rw [shape, left_callback_template, taken_template_append inside]
    exact ih
  | @line depth body later inside _ ih =>
    have shape : '/' :: '/' :: body ++ '\n' :: later ++ c :: r =
        '/' :: '/' :: (body ++ '\n' :: (later ++ c :: r)) := by simp
    rw [shape, left_callback_line inside, ih]
  | @block depth body later unclosed _ ih =>
    have shape : '/' :: '*' :: body ++ '*' :: '/' :: later ++ c :: r =
        '/' :: '*' :: (body ++ '*' :: '/' :: (later ++ c :: r)) := by simp
    rw [shape, left_callback_block unclosed, ih]
  | @opening depth b later opens _ ih => rw [List.cons_append, left_callback_opening _ _ opens, ih]
  | @closing depth b later closes _ ih =>
    rw [List.cons_append, left_callback_mark _ _ (.inl closes), if_neg (Nat.succ_ne_zero depth),
      if_pos closes]
    exact ih
  | @comma depth later _ ih =>
    rw [List.cons_append, left_callback_mark _ _ (.inr rfl), if_neg (Nat.succ_ne_zero depth),
      if_neg (by decide), ih]
  | @plain depth b later plain slash _ ih =>
    have noComment : leftComment (b :: (later ++ c :: r)) = some none := by
      by_cases same : b = '/'
      · have marks : ∀ c ∈ [',', '}', ']', ')'], c ≠ '/' ∧ c ≠ '*' := forall_mem_of_all (by decide)
        have apart := marks c ends.mem
        rw [same]
        cases later with
        | nil =>
          refine leftComment_slash ?_ ?_
          · exact fun first => apart.1 (Option.some.inj first)
          · exact fun first => apart.2 (Option.some.inj first)
        | cons d later => exact leftComment_slash (slash same).1 (slash same).2
      · exact leftComment_of_ne_slash same _
    rw [List.cons_append, left_callback_plain _ _ plain noComment, ih]

section Sound
variable {n : Nat} (passes : ∀ {depth : Nat} {s r : List Char} {c : Char}, s.length < n →
  left (callback depth s) = some (c :: r) → ∃ code, s = code ++ c :: r ∧ Code depth code ∧ EndsCode c)
include passes

private theorem exists_of_callback_string {depth : Nat} {quote c : Char} (isQuote : IsQuote quote)
    {t r : List Char} (short : t.length < n)
    (read : left (callback depth (quote :: t)) = some (c :: r)) :
    ∃ code, quote :: t = code ++ c :: r ∧ Code depth code ∧ EndsCode c := by
  rw [left_callback_string isQuote] at read
  obtain ⟨⟨text, u⟩, string, on⟩ := Option.bind_eq_some_iff.1 read
  obtain ⟨body, rfl, inside⟩ := exists_of_quoted _ isQuote string
  have shorter : u.length < n := by
    simp only [List.length_append, List.length_cons] at short
    omega
  obtain ⟨code, rfl, held, ends⟩ := passes shorter on
  exact ⟨quote :: body ++ quote :: code, by simp, .string isQuote inside held, ends⟩

private theorem exists_of_callback_template {depth : Nat} {c : Char} {t r : List Char}
    (short : t.length < n) (read : left (callback depth ('`' :: t)) = some (c :: r)) :
    ∃ code, '`' :: t = code ++ c :: r ∧ Code depth code ∧ EndsCode c := by
  rw [left_callback_template] at read
  obtain ⟨⟨interpolated, u⟩, template, on⟩ := Option.bind_eq_some_iff.1 read
  obtain ⟨body, rfl, inside⟩ := exists_of_template template
  have shorter : u.length < n := by
    simp only [List.length_append, List.length_cons] at short
    omega
  obtain ⟨code, rfl, held, ends⟩ := passes shorter on
  exact ⟨'`' :: body ++ '`' :: code, by simp, .template inside held, ends⟩

private theorem exists_of_callback_comment {depth : Nat} {c : Char} {s t r : List Char}
    (short : s.length ≤ n) (comment : leftComment s = some (some t))
    (on : left (callback depth t) = some (c :: r)) :
    ∃ code, s = code ++ c :: r ∧ Code depth code ∧ EndsCode c := by
  rcases exists_of_leftComment comment with ⟨later, rfl, rfl⟩ | ⟨body, rfl, unclosed⟩
  · -- a line comment leaves its line feed, unless the text ends in it
    rcases notMem_or_exists_append '\n' later with inside | ⟨body, later, rfl, inside⟩
    · rw [List.dropWhile_eq_nil_iff.2 (bne_of_notMem inside), left_callback_nil] at on
      split at on
      · cases on
      · cases on
    · rw [dropWhile_run (bne_of_notMem inside) (by simp), left_callback_plain _ _ (by decide)
        (leftComment_of_ne_slash (by decide) _)] at on
      have shorter : later.length < n := by
        simp only [List.length_append, List.length_cons] at short
        omega
      obtain ⟨code, rfl, held, ends⟩ := passes shorter on
      exact ⟨'/' :: '/' :: body ++ '\n' :: code, by simp, .line inside held, ends⟩
  · have shorter : t.length < n := by
      simp only [List.length_append, List.length_cons] at short
      omega
    obtain ⟨code, rfl, held, ends⟩ := passes shorter on
    exact ⟨'/' :: '*' :: body ++ '*' :: '/' :: code, by simp, .block unclosed held, ends⟩

private theorem exists_of_callback_mark {depth : Nat} {b c : Char} (mark : EndsCode b)
    {t r : List Char}
    (short : t.length < n) (read : left (callback depth (b :: t)) = some (c :: r)) :
    ∃ code, b :: t = code ++ c :: r ∧ Code depth code ∧ EndsCode c := by
  rw [left_callback_mark _ _ mark] at read
  cases depth with
  | zero =>
    cases read
    exact ⟨[], rfl, .nil, mark⟩
  | succ depth =>
    rw [if_neg (Nat.succ_ne_zero depth)] at read
    split at read
    · next closes =>
      obtain ⟨code, rfl, held, ends⟩ := passes short read
      exact ⟨b :: code, rfl, .closing closes held, ends⟩
    · next closes =>
      obtain ⟨code, rfl, held, ends⟩ := passes short read
      cases mark.resolve_left closes
      exact ⟨',' :: code, rfl, .comma held, ends⟩

private theorem exists_of_callback_plain {depth : Nat} {b c : Char} (plain : IsPlain b)
    {t r : List Char}
    (noComment : leftComment (b :: t) = some none) (short : t.length < n)
    (read : left (callback depth (b :: t)) = some (c :: r)) :
    ∃ code, b :: t = code ++ c :: r ∧ Code depth code ∧ EndsCode c := by
  rw [left_callback_plain _ _ plain noComment] at read
  obtain ⟨code, rfl, held, ends⟩ := passes short read
  refine ⟨b :: code, rfl, .plain plain ?_ held, ends⟩
  rintro rfl
  constructor
  · intro first
    obtain ⟨later, rfl⟩ := List.head?_eq_some_iff.1 first
    cases (leftComment_line _).symm.trans noComment
  · intro first
    obtain ⟨later, rfl⟩ := List.head?_eq_some_iff.1 first
    rw [List.cons_append, leftComment_block] at noComment
    obtain ⟨rest, -, same⟩ := Option.map_eq_some_iff.1 noComment
    cases same

end Sound

/-- Only code is passed over before a character that is left. -/
theorem exists_of_callback {depth : Nat} {s r : List Char} {c : Char}
    (read : left (callback depth s) = some (c :: r)) :
    ∃ code, s = code ++ c :: r ∧ Code depth code ∧ EndsCode c := by
  induction length : s.length using Nat.strong_induction_on generalizing depth s c r with
  | _ n ih =>
    have passes {depth : Nat} {s r : List Char} {c : Char} (short : s.length < n)
        (read : left (callback depth s) = some (c :: r)) :
        ∃ code, s = code ++ c :: r ∧ Code depth code ∧ EndsCode c := ih _ short read rfl
    cases s with
    | nil =>
      rw [left_callback_nil] at read
      split at read
      · cases read
      · cases read
    | cons b t =>
      have short : t.length < n := by
        rw [← length]
        exact Nat.lt_succ_self _
      by_cases isQuote : IsQuote b
      · exact exists_of_callback_string passes isQuote short read
      by_cases backtick : b = '`'
      · rw [backtick] at read ⊢
        exact exists_of_callback_template passes short read
      have other : b ∉ ['\'', '"', '`'] := by
        simp only [List.mem_cons, List.not_mem_nil, or_false]
        rintro (single | double | same)
        · exact isQuote (.inl single)
        · exact isQuote (.inr double)
        · exact backtick same
      have step := read
      rw [left_callback_other other] at step
      obtain ⟨_ | u, comment, on⟩ := Option.bind_eq_some_iff.1 step
      · by_cases opens : opensBracket b = true
        · rw [left_callback_opening _ _ opens] at read
          obtain ⟨code, rfl, held, ends⟩ := passes short read
          exact ⟨b :: code, rfl, .opening opens held, ends⟩
        by_cases mark : EndsCode b
        · exact exists_of_callback_mark passes mark short read
        · have plain : IsPlain b := by
            simp only [EndsCode, opensBracket, closesBracket, Bool.or_eq_true,
              decide_eq_true_eq, not_or, List.mem_cons, List.not_mem_nil, or_false] at opens mark other
            simp [IsPlain, opens, mark, other]
          exact exists_of_callback_plain passes plain comment short read
      · exact exists_of_callback_comment passes length.le comment on

theorem isIdentifierPart_of_isNumberPart {c : Char} (part : isNumberPart c = true) (dot : c ≠ '.') :
    isIdentifierPart c = true := by
  have all : ∀ code ∈ List.range 128, isNumberPart (Char.ofNat code) = true →
      Char.ofNat code ≠ '.' → isIdentifierPart (Char.ofNat code) = true := by
    decide +kernel
  have below {last : Char} (within : c.val ≤ last.val) (small : last.toNat < 128) :
      c.toNat < 128 := Nat.lt_of_le_of_lt (UInt32.le_iff_toNat_le.1 within) small
  have low : c.toNat < 128 := by
    simp only [isNumberPart, Bool.or_eq_true, decide_eq_true_eq] at part
    rcases part with (alphanumeric | rfl) | rfl
    · rcases (Bool.or_eq_true_iff (x := c.isAlpha) (y := c.isDigit)).1 alphanumeric with letter | digit
      · rcases (Bool.or_eq_true_iff (x := c.isUpper) (y := c.isLower)).1 letter with upper | lower
        · exact @below 'Z' (of_decide_eq_true upper).2 (by decide)
        · exact @below 'z' (of_decide_eq_true (Bool.and_eq_true_iff.1 lower).2) (by decide)
      · exact @below '9' (of_decide_eq_true (Bool.and_eq_true_iff.1 digit).2) (by decide)
    · exact absurd rfl dot
    · decide
  have here := all c.toNat (List.mem_range.2 low)
  rw [Char.ofNat_toNat] at here
  exact here part dot

theorem wordFrom_functionText {code : List Char} (function : FunctionText code) {c : Char}
    (ends : EndsCode c) (r : List Char) :
    wordFrom (code ++ c :: r) = some (.callback, c :: r) := by
  have stops : Stops (c :: r) := Stops.cons (marks ends.mem).2 r
  cases function with
  | @parenthesis later code =>
    have read := left_callback_append code.of_parenthesis ends r
    exact congrArg (Option.map fun rest => (Literal.callback, rest)) read
  | @announced word later announced apart code =>
    have behind : Stops (later ++ c :: r) := by
      cases later with
      | nil => exact stops
      | cons d later =>
        obtain ⟨part, dot⟩ := apart d rfl
        have number : isNumberPart d = false := by
          by_contra number
          cases part.symm.trans (isIdentifierPart_of_isNumberPart (by simpa using number) dot)
        exact Stops.cons ⟨part, number⟩ _
    simp only [List.mem_cons, List.not_mem_nil, or_false] at announced
    have shape : word.all isIdentifierPart = true ∧ word.head?.any isIdentifierStart = true ∧
        word ≠ [] := by
      rcases announced with rfl | rfl
      · decide +kernel
      · decide +kernel
    obtain ⟨parts, start, some⟩ := shape
    have read := left_callback_append (code.of_path (path_of_all parts some)) ends r
    have function : namedFrom (String.ofList word) (later ++ c :: r) =
        (left (callback 0 (later ++ c :: r))).map fun rest => (.callback, rest) := by
      rcases announced with rfl | rfl
      · rfl
      · rfl
    rw [List.append_assoc, wordFrom_reserved parts start behind, function, read]
    rfl
  | @arrow word gap later name trivial code =>
    have named : Stops (gap ++ '=' :: '>' :: later ++ c :: r) := by
      rw [List.append_assoc]
      exact stops_trivia trivial fun _ => Stops.cons (by decide +kernel) _
    have points : left (trivia (gap ++ '=' :: '>' :: later ++ c :: r)) =
        some ('=' :: '>' :: (later ++ c :: r)) := by
      rw [List.append_assoc]
      exact left_trivia_gap trivial (by decide) _
    have read := left_callback_append (code.of_path name.path) ends r
    rw [List.append_assoc, wordFrom_path name.path name.start named,
      namedFrom_of_notMem name.free, points, Option.bind_some, plainFrom_arrow _ _ rfl, read]
    rfl

end Reader

end CommandReference.Literal
