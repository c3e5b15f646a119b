import CommandReference.Proofs.Literal.Template

/-! The readers of numbers, paths and keys against the grammar. Each takes a longest run, so
a word is read as a whole where a character follows that belongs to no word. -/
namespace CommandReference.Literal.Reader
open Text Grammar

private theorem mem_of_inIntervals {intervals : List (Nat × Nat)} {code : Nat}
    (inside : inIntervals intervals code = true) :
    code ∈ intervals.flatMap fun (first, last) => List.range' first (last + 1 - first) := by
  induction intervals with
  | nil => cases inside
  | cons interval later ih =>
    obtain ⟨first, last⟩ := interval
    simp only [inIntervals, Bool.and_eq_true, Bool.or_eq_true, decide_eq_true_eq] at inside
    rw [List.flatMap_cons, List.mem_append, List.mem_range'_1]
    rcases inside with ⟨low, high | inside⟩
    · left
      omega
    · exact .inr (ih inside)

/-- A character at which every word ends. -/
def EndsWord (c : Char) : Prop := isIdentifierPart c = false ∧ isNumberPart c = false

instance (c : Char) : Decidable (EndsWord c) := inferInstanceAs (Decidable (_ ∧ _))

theorem endsWord_of_isBlank {c : Char} (blank : isBlank c = true) : EndsWord c := by
  have all : ∀ code ∈ blankIntervals.flatMap fun (first, last) =>
      List.range' first (last + 1 - first), EndsWord (Char.ofNat code) := by
    decide +kernel
  have here := all c.toNat (mem_of_inIntervals blank)
  rwa [Char.ofNat_toNat] at here

theorem mem_digits {c : Char} (digit : isDigit c = true) : c ∈ "0123456789".toList := by
  have all : ∀ code ∈ List.range 58, isDigit (Char.ofNat code) = true →
      Char.ofNat code ∈ "0123456789".toList := by
    decide +kernel
  have low : c.toNat < 58 := by
    simp only [isDigit, Bool.and_eq_true, decide_eq_true_eq] at digit
    exact Nat.lt_succ_of_le digit.2
  have here := all c.toNat (List.mem_range.2 low)
  rw [Char.ofNat_toNat] at here
  exact here digit

theorem isToken_of_isIdentifierPart {c : Char} (part : isIdentifierPart c = true) : IsToken c := by
  constructor
  · by_contra blank
    have ends := endsWord_of_isBlank (by simpa using blank)
    cases part.symm.trans ends.1
  · rintro rfl
    revert part
    decide +kernel

theorem isIdentifierPart_of_isIdentifierStart {c : Char} (start : isIdentifierStart c = true) :
    isIdentifierPart c = true := by
  simp only [isIdentifierStart, isIdentifierPart, Bool.or_eq_true] at start ⊢
  rcases start with (letter | underscore) | dollar
  · exact .inl (.inl (.inl letter))
  · exact .inl (.inr underscore)
  · exact .inr dollar

/-- A text at whose start every word ends. -/
def Stops (rest : List Char) : Prop := ∀ c ∈ rest.head?, EndsWord c

theorem Stops.cons {c : Char} (ends : EndsWord c) (r : List Char) : Stops (c :: r) := by
  rintro d same
  cases same
  exact ends

theorem stops_trivia {gap : List Char} (trivial : Trivia gap) {rest : List Char}
    (stops : gap = [] → Stops rest) : Stops (gap ++ rest) := by
  cases trivial with
  | nil => exact stops rfl
  | blank blank _ => exact Stops.cons (endsWord_of_isBlank blank) _
  | line _ _ => exact Stops.cons (by decide +kernel) _
  | block _ _ => exact Stops.cons (by decide +kernel) _

theorem taken_number (c : Char) (r : List Char) :
    taken (number c r) =
      if (c :: r.takeWhile isNumberPart).any isDigit then
        some (c :: r.takeWhile isNumberPart, r.dropWhile isNumberPart)
      else none :=
  seen_ite _ _ _ _

/-- The characters with which a number begins. -/
def BeginsNumber (c : Char) : Prop := c = '-' ∨ c = '+' ∨ isDigit c = true

theorem number_cons_iff {c : Char} {body : List Char} (begins : BeginsNumber c) :
    Number (c :: body) ↔
      (∀ d ∈ body, isNumberPart d = true) ∧ (c :: body).any isDigit = true := by
  rw [List.any_cons, Bool.or_eq_true, List.any_eq_true]
  constructor
  · intro number
    cases number with
    | unsigned digit parts => exact ⟨parts, .inl digit⟩
    | signed _ parts digit => exact ⟨parts, .inr digit⟩
  · rintro ⟨parts, digit | digit⟩
    · exact .unsigned digit parts
    · rcases begins with minus | plus | first
      · exact .signed (.inl minus) parts digit
      · exact .signed (.inr plus) parts digit
      · exact .unsigned first parts

theorem exists_cons_of_number {word : List Char} (number : Number word) :
    ∃ c body, word = c :: body ∧ BeginsNumber c := by
  cases number with
  | unsigned digit _ => exact ⟨_, _, rfl, .inr (.inr digit)⟩
  | signed sign _ _ => exact ⟨_, _, rfl, sign.imp_right .inl⟩

theorem taken_number_append {c : Char} {body rest : List Char} (begins : BeginsNumber c)
    (number : Number (c :: body)) (stops : Stops rest) :
    taken (Reader.number c (body ++ rest)) = some (c :: body, rest) := by
  obtain ⟨parts, digit⟩ := (number_cons_iff begins).1 number
  have stop : ∀ d ∈ rest.head?, isNumberPart d = false := fun d first => (stops d first).2
  rw [taken_number, takeWhile_run parts stop, dropWhile_run parts stop, if_pos digit]

theorem exists_of_number {c : Char} {r word rest : List Char} (begins : BeginsNumber c)
    (read : taken (number c r) = some (word, rest)) : c :: r = word ++ rest ∧ Number word := by
  rw [taken_number] at read
  split at read
  · next digit =>
    cases read
    refine ⟨?_, (number_cons_iff begins).2 ⟨fun d inside => List.mem_takeWhile_imp inside, digit⟩⟩
    rw [List.cons_append, List.takeWhile_append_dropWhile]
  · cases read

private theorem taken_segments_dot (r : List Char) :
    taken (segments ('.' :: r)) =
      if r.takeWhile isIdentifierPart = [] then none
      else (taken (segments (r.dropWhile isIdentifierPart))).map fun later =>
        ('.' :: r.takeWhile isIdentifierPart ++ later.1, later.2) := by
  rw [segments, taken, seen_ite]
  congr 1
  exact seen_map fun later => rfl

theorem taken_segments_end {s : List Char} (ends : s.head? ≠ some '.') :
    taken (segments s) = some ([], s) := by
  rw [segments]
  · rfl
  · rintro r rfl
    exact ends rfl

theorem taken_path (s : List Char) :
    taken (path s) =
      if s.takeWhile isIdentifierPart = [] then none
      else (taken (segments (s.dropWhile isIdentifierPart))).map fun later =>
        (s.takeWhile isIdentifierPart ++ later.1, later.2) := by
  rw [path]
  cases s with
  | nil => rfl
  | cons c r =>
    rw [ProperRest.pastWhile?, List.takeWhile_cons, List.dropWhile_cons]
    by_cases part : isIdentifierPart c = true
    · rw [if_pos part, if_pos part, if_pos part, if_neg (List.cons_ne_nil _ _)]
      exact seen_map fun later => rfl
    · rw [if_neg part, if_neg part, if_pos rfl]
      rfl

theorem taken_segments_path (r : List Char) :
    taken (segments ('.' :: r)) = (taken (path r)).map fun later => ('.' :: later.1, later.2) := by
  rw [taken_segments_dot, taken_path]
  split
  · rfl
  · rw [Option.map_map]
    rfl

theorem taken_path_segment {word rest : List Char} (segment : Segment word)
    (stop : ∀ c ∈ rest.head?, isIdentifierPart c = false) :
    taken (path (word ++ rest)) = (taken (segments rest)).map fun later =>
      (word ++ later.1, later.2) := by
  rw [taken_path, takeWhile_run segment.2 stop, dropWhile_run segment.2 stop, if_neg segment.1]

theorem taken_path_append {word rest : List Char} (named : Path word) (stops : Stops rest) :
    taken (path (word ++ rest)) = some (word, rest) := by
  induction named with
  | @segment word segment =>
    have ends : rest.head? ≠ some '.' := by
      intro dot
      have part := (stops '.' dot).2
      revert part
      decide
    rw [taken_path_segment segment fun c first => (stops c first).1, taken_segments_end ends,
      Option.map_some, List.append_nil]
  | @dotted word later segment named ih =>
    have stop : ∀ c ∈ ('.' :: (later ++ rest)).head?, isIdentifierPart c = false := by
      rintro c same
      cases same
      decide +kernel
    rw [List.append_assoc, List.cons_append, taken_path_segment segment stop, taken_segments_path,
      ih]
    rfl

theorem exists_segment_of_path {s : List Char} {found : List Char × List Char}
    (read : taken (path s) = some found) :
    ∃ word t, s = word ++ t ∧ Segment word ∧ ∀ c ∈ t.head?, isIdentifierPart c = false := by
  rw [taken_path] at read
  split at read
  · cases read
  · next some =>
    have segment : Segment (s.takeWhile isIdentifierPart) :=
      ⟨some, fun c inside => List.mem_takeWhile_imp inside⟩
    refine ⟨s.takeWhile isIdentifierPart, s.dropWhile isIdentifierPart,
      List.takeWhile_append_dropWhile.symm, segment, ?_⟩
    intro c first
    have out := List.head?_dropWhile_not isIdentifierPart s
    rw [first] at out
    exact out

/-- What the path reader takes is a path, and no longer word is one. -/
theorem exists_of_path {s word rest : List Char} (read : taken (path s) = some (word, rest)) :
    s = word ++ rest ∧ Path word ∧ ∀ c ∈ rest.head?, isIdentifierPart c = false := by
  induction length : s.length using Nat.strong_induction_on generalizing s word with
  | _ n ih =>
    obtain ⟨first, t, rfl, segment, stop⟩ := exists_segment_of_path read
    rw [taken_path_segment segment stop] at read
    by_cases dot : t.head? = some '.'
    · obtain ⟨r, rfl⟩ := List.head?_eq_some_iff.1 dot
      rw [taken_segments_path, Option.map_map, Option.map_eq_some_iff] at read
      obtain ⟨⟨later, left⟩, goesOn, joined⟩ := read
      simp only [Function.comp_apply, Prod.mk.injEq] at joined
      obtain ⟨rfl, rfl⟩ := joined
      have shorter : r.length < n := by
        rw [← length, List.length_append, List.length_cons]
        omega
      obtain ⟨rfl, named, behind⟩ := ih _ shorter goesOn rfl
      exact ⟨by simp, .dotted segment named, behind⟩
    · rw [taken_segments_end dot, Option.map_some, Option.some.injEq, Prod.mk.injEq,
        List.append_nil] at read
      obtain ⟨rfl, rfl⟩ := read
      exact ⟨rfl, .segment segment, stop⟩

theorem taken_key_quoted {quote : Char} (isQuote : IsQuote quote) (r : List Char) :
    taken (key quote r) = taken (quoted (quote :: r) quote r) := by
  rw [key]
  refine (congrArg taken (if_pos isQuote)).trans ?_
  exact (seen_map fun later => rfl).trans Option.map_id'

theorem taken_key_identifier {c : Char} (start : isIdentifierStart c = true) (r : List Char) :
    taken (key c r) =
      some (c :: r.takeWhile isIdentifierPart, r.dropWhile isIdentifierPart) := by
  have other : ¬ (c = '\'' ∨ c = '"') := by
    rintro (rfl | rfl)
    · exact absurd start (by decide +kernel)
    · exact absurd start (by decide +kernel)
  rw [key, if_neg other, if_pos start]
  rfl

theorem taken_key_append {word name : List Char} (named : Key word name) :
    ∃ c body, word = c :: body ∧ IsToken c ∧ c ≠ '}' ∧
      ∀ rest, Stops rest → taken (key c (body ++ rest)) = some (name, rest) := by
  cases named with
  | @identifier c body start parts =>
    refine ⟨c, body, rfl, isToken_of_isIdentifierPart (isIdentifierPart_of_isIdentifierStart start),
      ?_, fun rest stops => ?_⟩
    · rintro rfl
      exact absurd start (by decide +kernel)
    · have stop : ∀ d ∈ rest.head?, isIdentifierPart d = false := fun d first => (stops d first).1
      rw [taken_key_identifier start, takeWhile_run parts stop, dropWhile_run parts stop]
  | @quoted quote body _ isQuote inside =>
    have token : IsToken quote ∧ quote ≠ '}' := by
      rcases isQuote with rfl | rfl
      · decide
      · decide
    refine ⟨quote, body ++ [quote], rfl, token.1, token.2, fun rest _ => ?_⟩
    rw [List.append_assoc, taken_key_quoted isQuote]
    exact taken_quoted_append _ isQuote inside rest

theorem exists_of_key {c : Char} {r name rest : List Char}
    (read : taken (key c r) = some (name, rest)) :
    ∃ word, c :: r = word ++ rest ∧ Key word name := by
  by_cases isQuote : IsQuote c
  · rw [taken_key_quoted isQuote] at read
    obtain ⟨body, rfl, inside⟩ := exists_of_quoted _ isQuote read
    exact ⟨c :: body ++ [c], by simp, .quoted isQuote inside⟩
  · by_cases start : isIdentifierStart c = true
    · rw [taken_key_identifier start] at read
      cases read
      refine ⟨c :: r.takeWhile isIdentifierPart, ?_, .identifier start ?_⟩
      · rw [List.cons_append, List.takeWhile_append_dropWhile]
      · exact fun d inside => List.mem_takeWhile_imp inside
    · rw [IsQuote] at isQuote
      rw [key, if_neg isQuote, if_neg start] at read
      cases read

end CommandReference.Literal.Reader
