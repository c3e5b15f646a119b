import CommandReference.Proofs.Literal.Trivia

/-! The readers of quoted strings and of template strings against the grammar. -/
namespace CommandReference.Literal.Reader
open Text Grammar

theorem escape_iff {c meant : Char} :
    Escape c meant ↔ c ≠ 'u' ∧ c ≠ '\n' ∧ escaped c = meant := by
  constructor
  · intro escape
    cases escape with
    | lineFeed => decide
    | tab => decide
    | carriageReturn => decide
    | null => decide
    | itself other =>
      simp only [List.mem_cons, List.not_mem_nil, or_false, not_or] at other
      obtain ⟨n, t, r, zero, u, newline⟩ := other
      refine ⟨u, newline, ?_⟩
      rw [escaped]
      · exact n
      · exact t
      · exact r
      · exact zero
  · rintro ⟨u, newline, rfl⟩
    rw [escaped.eq_def]
    split
    · exact .lineFeed
    · exact .tab
    · exact .carriageReturn
    · exact .null
    · rename_i n t r zero
      refine .itself ?_
      simp only [List.mem_cons, List.not_mem_nil, or_false, not_or]
      exact ⟨n, t, r, zero, u, newline⟩

private theorem charOfHex?_brace (digits : List Char) : charOfHex? ('{' :: digits) = none := by
  rfl

theorem taken_unicodeEscape (s : List Char) :
    taken (unicodeEscape s) = (taken (unicodeDigits s)).bind fun found =>
      (charOfHex? found.1).map fun c => (c, found.2) := by
  rw [unicodeEscape]
  refine seen_bind fun found => ?_
  obtain ⟨digits, rest⟩ := found
  simp only [Prod.map_apply, id]
  cases charOfHex? digits with
  | none => rfl
  | some c => rfl

theorem taken_unicodeDigits_brace (body : List Char) :
    taken (unicodeDigits ('{' :: body)) =
      match (Rest.pastWhile (· != '}') body).1 with
      | [] => none
      | _ :: r => some (body.takeWhile (· != '}'), r) := by
  rw [unicodeDigits]
  obtain ⟨_ | ⟨c, r⟩, inside⟩ := Rest.pastWhile (· != '}') body
  · rfl
  · rfl

theorem taken_unicodeDigits_braced {digits : List Char} (inside : '}' ∉ digits)
    (rest : List Char) :
    taken (unicodeDigits ('{' :: (digits ++ '}' :: rest))) = some (digits, rest) := by
  have stop : ∀ c ∈ ('}' :: rest).head?, (c != '}') = false := by simp
  have past : (Rest.pastWhile (· != '}') (digits ++ '}' :: rest)).1 = '}' :: rest :=
    dropWhile_run (bne_of_notMem inside) stop
  rw [taken_unicodeDigits_brace, past, takeWhile_run (bne_of_notMem inside) stop]

private theorem taken_unicodeDigits_open {body : List Char} (inside : '}' ∉ body) :
    taken (unicodeDigits ('{' :: body)) = none := by
  have past : (Rest.pastWhile (· != '}') body).1 = [] :=
    List.dropWhile_eq_nil_iff.2 (bne_of_notMem inside)
  rw [taken_unicodeDigits_brace, past]

theorem taken_unicodeDigits_four {s : List Char} (other : s.head? ≠ some '{') :
    taken (unicodeDigits s) = some (s.take 4, s.drop 4) := by
  rw [unicodeDigits]
  · rfl
  · rintro body rfl
    exact other rfl

private theorem taken_unicodeEscape_braced {digits : List Char} {meant : Char}
    (inside : '}' ∉ digits)
    (means : charOfHex? digits = some meant) (rest : List Char) :
    taken (unicodeEscape ('{' :: (digits ++ '}' :: rest))) = some (meant, rest) := by
  rw [taken_unicodeEscape, taken_unicodeDigits_braced inside]
  simp [means]

private theorem taken_unicodeEscape_four {digits : List Char} {meant : Char}
    (four : digits.length = 4)
    (means : charOfHex? digits = some meant) (rest : List Char) :
    taken (unicodeEscape (digits ++ rest)) = some (meant, rest) := by
  have other : (digits ++ rest).head? ≠ some '{' := by
    cases digits with
    | nil => cases four
    | cons c later =>
      rintro same
      cases same
      cases (charOfHex?_brace later).symm.trans means
  rw [taken_unicodeEscape, taken_unicodeDigits_four other, List.take_left' four,
    List.drop_left' four]
  simp [means]

private theorem exists_of_unicodeEscape {s rest : List Char} {meant : Char} (quote : Char)
    (read : taken (unicodeEscape s) = some (meant, rest)) (more : rest ≠ []) :
    ∃ word, s = word ++ rest ∧ Piece quote ('\\' :: 'u' :: word) [meant] := by
  rw [taken_unicodeEscape] at read
  obtain ⟨⟨digits, left⟩, split, mapped⟩ := Option.bind_eq_some_iff.1 read
  obtain ⟨c, means, same⟩ := Option.map_eq_some_iff.1 mapped
  cases same
  by_cases braced : s.head? = some '{'
  · obtain ⟨body, rfl⟩ := List.head?_eq_some_iff.1 braced
    rcases notMem_or_exists_append '}' body with unclosed | ⟨digits, later, rfl, inside⟩
    · cases (taken_unicodeDigits_open unclosed).symm.trans split
    · cases (taken_unicodeDigits_braced inside later).symm.trans split
      exact ⟨'{' :: digits ++ ['}'], by simp, .braced inside means⟩
  · rw [taken_unicodeDigits_four braced] at split
    cases split
    refine ⟨s.take 4, (List.take_append_drop 4 s).symm, .unicode ?_ means⟩
    rw [List.length_take, Nat.min_eq_left]
    rw [Ne, List.drop_eq_nil_iff] at more
    exact (Nat.lt_of_not_le more).le

section Quoted
variable (opening : List Char) (quote : Char)

/-- What a piece adds to what is read behind it. -/
def addText (meant : List Char) (later : List Char × List Char) : List Char × List Char :=
  (meant ++ later.1, later.2)

theorem taken_quoted_unicode (r : List Char) :
    taken (quoted opening quote ('\\' :: 'u' :: r)) =
      (taken (unicodeEscape r)).bind fun found =>
        (taken (quoted opening quote found.2)).map (addText [found.1]) := by
  rw [quoted]
  refine seen_bind fun found => ?_
  exact seen_map fun later => rfl

private theorem taken_quoted_continued (r : List Char) :
    taken (quoted opening quote ('\\' :: '\n' :: r)) =
      (taken (quoted opening quote r)).map (addText []) := by
  rw [quoted]
  exact seen_map fun later => rfl

private theorem taken_quoted_escape {c : Char} (other : c ≠ 'u') (onLine : c ≠ '\n')
    (r : List Char) :
    taken (quoted opening quote ('\\' :: c :: r)) =
      (taken (quoted opening quote r)).map (addText [escaped c]) := by
  rw [quoted]
  · exact seen_map fun later => rfl
  · exact other
  · exact onLine

theorem taken_quoted_cons {c : Char} (plain : c ≠ '\\') (onLine : c ≠ '\n') (r : List Char) :
    taken (quoted opening quote (c :: r)) =
      if c = quote then some ([], r)
      else (taken (quoted opening quote r)).map (addText [c]) := by
  rw [quoted]
  · rw [taken, seen_ite]
    congr 1
    exact seen_map fun later => rfl
  · exact onLine
  · exact fun same _ => plain same
  · exact fun _ same _ => plain same
  · exact fun _ same _ => plain same
  · exact fun _ _ same _ => plain same

/-- A piece is read as what it stands for. -/
theorem taken_quoted_piece {word meant : List Char} (piece : Piece quote word meant)
    (later : List Char) :
    taken (quoted opening quote (word ++ later)) =
      (taken (quoted opening quote later)).map (addText meant) := by
  cases piece with
  | @plain c other =>
    simp only [List.mem_cons, List.not_mem_nil, or_false, not_or] at other
    obtain ⟨apart, plain, onLine⟩ := other
    exact (taken_quoted_cons opening quote plain onLine later).trans (if_neg apart)
  | escape escape =>
    obtain ⟨other, onLine, rfl⟩ := escape_iff.1 escape
    exact taken_quoted_escape opening quote other onLine later
  | continued => exact taken_quoted_continued opening quote later
  | unicode four means =>
    rw [List.cons_append, List.cons_append, taken_quoted_unicode,
      taken_unicodeEscape_four four means]
    rfl
  | @braced digits c inside means =>
    have shape : '\\' :: 'u' :: '{' :: digits ++ ['}'] ++ later =
        '\\' :: 'u' :: '{' :: (digits ++ '}' :: later) := by simp
    rw [shape, taken_quoted_unicode, taken_unicodeEscape_braced inside means]
    rfl

theorem taken_quoted_close {quote : Char} (isQuote : IsQuote quote) (rest : List Char) :
    taken (quoted opening quote (quote :: rest)) = some ([], rest) := by
  have plain : quote ≠ '\\' ∧ quote ≠ '\n' := by
    rcases isQuote with rfl | rfl
    · decide
    · decide
  exact (taken_quoted_cons opening quote plain.1 plain.2 rest).trans (if_pos rfl)

theorem taken_quoted_append {quote : Char} (isQuote : IsQuote quote) {body text : List Char}
    (inside : Quoted quote body text) (rest : List Char) :
    taken (quoted opening quote (body ++ quote :: rest)) = some (text, rest) := by
  induction inside with
  | nil => exact taken_quoted_close opening isQuote rest
  | cons piece _ ih =>
    rw [List.append_assoc, taken_quoted_piece opening quote piece, ih]
    rfl

theorem taken_quoted_nil : taken (quoted opening quote []) = none := by
  rw [quoted]
  rfl

/-- Where the reader does not fail, the text begins with the closing quote or with a piece. -/
theorem piece_of_quoted {s : List Char} {found : List Char × List Char}
    (read : taken (quoted opening quote s) = some found) :
    (∃ r, s = quote :: r) ∨ ∃ word meant later, s = word ++ later ∧ word ≠ [] ∧
      Piece quote word meant := by
  cases s with
  | nil => cases (taken_quoted_nil opening quote).symm.trans read
  | cons c r =>
    by_cases backslash : c = '\\'
    · subst backslash
      cases r with
      | nil =>
        rw [quoted] at read
        cases read
      | cons c r =>
        right
        by_cases unicode : c = 'u'
        · subst unicode
          rw [taken_quoted_unicode] at read
          obtain ⟨⟨meant, later⟩, escape, goesOn⟩ := Option.bind_eq_some_iff.1 read
          have more : later ≠ [] := by
            rintro rfl
            rw [taken_quoted_nil] at goesOn
            cases goesOn
          obtain ⟨word, rfl, piece⟩ := exists_of_unicodeEscape quote escape more
          exact ⟨'\\' :: 'u' :: word, [meant], later, rfl, List.cons_ne_nil _ _, piece⟩
        · by_cases continued : c = '\n'
          · subst continued
            exact ⟨['\\', '\n'], [], r, rfl, List.cons_ne_nil _ _, .continued⟩
          · have escape : Escape c (escaped c) := escape_iff.2 ⟨unicode, continued, rfl⟩
            exact ⟨['\\', c], [escaped c], r, rfl, List.cons_ne_nil _ _, .escape escape⟩
    · by_cases newline : c = '\n'
      · subst newline
        rw [quoted] at read
        cases read
      · by_cases closes : c = quote
        · exact .inl ⟨r, by rw [closes]⟩
        · have plain : c ∉ [quote, '\\', '\n'] := by simp [closes, backslash, newline]
          exact .inr ⟨[c], [c], r, rfl, List.cons_ne_nil _ _, .plain plain⟩

theorem exists_of_quoted {quote : Char} (isQuote : IsQuote quote) {s text rest : List Char}
    (read : taken (quoted opening quote s) = some (text, rest)) :
    ∃ body, s = body ++ quote :: rest ∧ Quoted quote body text := by
  induction length : s.length using Nat.strong_induction_on generalizing s text with
  | _ n ih =>
    rcases piece_of_quoted opening quote read with ⟨r, rfl⟩ | ⟨word, meant, later, rfl, some, piece⟩
    · cases (taken_quoted_close opening isQuote r).symm.trans read
      exact ⟨[], rfl, .nil⟩
    · rw [taken_quoted_piece opening quote piece] at read
      obtain ⟨⟨laterText, left⟩, goesOn, added⟩ := Option.map_eq_some_iff.1 read
      cases added
      have shorter : later.length < n := by
        rw [← length, List.length_append]
        exact Nat.lt_add_of_pos_left (List.length_pos_iff.2 some)
      obtain ⟨body, rfl, inside⟩ := ih _ shorter goesOn rfl
      exact ⟨word ++ body, (List.append_assoc _ _ _).symm, .cons piece inside⟩

end Quoted

end CommandReference.Literal.Reader
