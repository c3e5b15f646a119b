import CommandReference.Proofs.Literal.Code

/-! Readers are local: what is taken before a comma or a closing bracket does not depend on
what follows it. Functions are included, so this does not come from the grammar of literals. -/
namespace CommandReference.Literal.Reader
open Text Grammar

private theorem stops_of_path {s word rest : List Char}
    (read : taken (path s) = some (word, rest)) :
    Stops rest := by
  induction length : s.length using Nat.strong_induction_on generalizing s word with
  | _ n ih =>
    obtain ⟨first, t, rfl, segment, stop⟩ := exists_segment_of_path read
    rw [taken_path_segment segment stop] at read
    by_cases dot : t.head? = some '.'
    · obtain ⟨r, rfl⟩ := List.head?_eq_some_iff.1 dot
      rw [taken_segments_path, Option.map_map, Option.map_eq_some_iff] at read
      obtain ⟨⟨later, left⟩, goesOn, joined⟩ := read
      simp only [Function.comp_apply, Prod.mk.injEq] at joined
      obtain ⟨-, rfl⟩ := joined
      refine ih _ ?_ goesOn rfl
      rw [← length, List.length_append, List.length_cons]
      omega
    · rw [taken_segments_end dot, Option.map_some, Option.some.injEq, Prod.mk.injEq] at read
      obtain ⟨-, rfl⟩ := read
      intro c same
      refine ⟨stop c same, ?_⟩
      by_contra number
      have part := isIdentifierPart_of_isNumberPart (by simpa using number) fun isDot =>
        dot (isDot ▸ same)
      cases part.symm.trans (stop c same)

private theorem left_callback_trivia {gap : List Char} (trivial : Trivia gap) (depth : Nat)
    (s : List Char) : left (callback depth (gap ++ s)) = left (callback depth s) := by
  induction trivial with
  | nil => rfl
  | @blank c later blank _ ih =>
    have plain := isPlain_of_isBlank blank
    rw [List.cons_append, left_callback_plain _ _ plain.1 (leftComment_of_ne_slash plain.2 _), ih]
  | @line body later inside _ ih =>
    have shape : '/' :: '/' :: body ++ '\n' :: later ++ s =
        '/' :: '/' :: (body ++ '\n' :: (later ++ s)) := by simp
    rw [shape, left_callback_line inside, ih]
  | @block body later unclosed _ ih =>
    have shape : '/' :: '*' :: body ++ '*' :: '/' :: later ++ s =
        '/' :: '*' :: (body ++ '*' :: '/' :: (later ++ s)) := by simp
    rw [shape, left_callback_block unclosed, ih]

private theorem not_endsCode_of_trivia {b : Char} {gap : List Char} (trivial : Trivia (b :: gap)) :
    ¬ EndsCode b := by
  intro ends
  have token := (marks ends.mem).1
  generalize whole : b :: gap = s at trivial
  cases trivial with
  | nil => cases whole
  | blank blank _ =>
    cases whole
    cases blank.symm.trans token.1
  | line _ _ =>
    cases whole
    exact token.2 rfl
  | block _ _ =>
    cases whole
    exact token.2 rfl

/-- A function is left at a mark, with no trivia before it. -/
theorem exists_of_callback_gap {depth : Nat} {s gap r : List Char} {m : Char}
    (trivial : Trivia gap) (read : left (callback depth s) = some (gap ++ m :: r)) :
    gap = [] ∧ ∃ code, s = code ++ m :: r ∧
      ∀ r', left (callback depth (code ++ m :: r')) = some (m :: r') := by
  cases gap with
  | nil =>
    obtain ⟨code, same, held, ends⟩ := exists_of_callback read
    exact ⟨rfl, code, same, left_callback_append held ends⟩
  | cons b gap =>
    obtain ⟨-, -, -, ends⟩ := exists_of_callback read
    exact absurd ends (not_endsCode_of_trivia trivial)

section Sequence
variable {α : Type} {close : Char} {one : List Char → Option (α × List Char)}
  {read : List Char → Option (List α × List Char)}

/-- In texts up to a length, what is taken before a mark is taken there whatever follows the
mark. -/
def Local (bound : Nat) (one : List Char → Option (α × List Char)) : Prop :=
  ∀ {s gap r : List Char} {item : α} {m : Char}, s.length ≤ bound → Trivia gap →
    m ∈ [',', '}', ']', ')'] → one s = some (item, gap ++ m :: r) →
    ∃ before c word, s = before ++ c :: word ++ (gap ++ m :: r) ∧ Trivia before ∧ IsToken c ∧
      ∀ r', one (before ++ c :: word ++ (gap ++ m :: r')) = some (item, gap ++ m :: r')

theorem ReadsItems.local (reads : ReadsItems close one read) (mark : close ∈ ['}', ']', ')'])
    {bound : Nat} (held : Local bound one) {s rest : List Char} {items : List α}
    (short : s.length ≤ bound) (found : read s = some (items, rest)) :
    ∃ body, s = body ++ rest ∧ ∀ rest', read (body ++ rest') = some (items, rest') := by
  have marked : close ∈ [',', '}', ']', ')'] := List.mem_cons_of_mem _ mark
  have token := (marks marked).1
  have other : close ≠ ',' := by
    rintro rfl
    revert mark
    decide
  obtain ⟨atEnd, equation⟩ := id reads
  induction length : s.length using Nat.strong_induction_on generalizing s items with
  | _ n ih =>
    rw [equation] at found
    obtain ⟨t, start, found⟩ := Option.bind_eq_some_iff.1 found
    by_cases closes : t.head? = some close
    · rw [if_pos closes] at found
      obtain ⟨r, rfl⟩ := List.head?_eq_some_iff.1 closes
      cases found
      obtain ⟨gap, rfl, trivial⟩ := exists_gap_of_left_trivia start
      refine ⟨gap ++ [close], by simp, fun rest' => ?_⟩
      rw [List.append_assoc]
      exact reads.closed token trivial rest'
    · rw [if_neg closes] at found
      obtain ⟨⟨item, behind⟩, first, found⟩ := Option.bind_eq_some_iff.1 found
      obtain ⟨w, separated, found⟩ := Option.bind_eq_some_iff.1 found
      obtain ⟨⟨later, left⟩, goesOn, joined⟩ := Option.map_eq_some_iff.1 found
      cases joined
      -- the first item, which a comma or the closing bracket follows
      have item {after r : List Char} {m : Char} (trivial : Trivia after)
          (mark : m ∈ [',', '}', ']', ')']) (first : one s = some (item, after ++ m :: r)) :
          ∃ word, s = word ++ (after ++ m :: r) ∧ word ≠ [] ∧
            ∀ r' w', (∀ atEnd, Reader.left (separator close atEnd (after ++ m :: r')) = some w') →
              read (word ++ (after ++ m :: r')) =
                (read w').map fun later => (item :: later.1, later.2) := by
        obtain ⟨before, c, word, rfl, beforeTrivial, begins, all⟩ := held short trivial mark first
        have apart : c ≠ close := by
          rintro rfl
          rw [List.append_assoc, List.cons_append, left_trivia_gap beforeTrivial begins] at start
          cases start
          exact closes rfl
        exact ⟨before ++ c :: word, rfl, by simp, fun r' w' separated =>
          reads.one_then beforeTrivial begins apart (all r') separated⟩
      rcases left_separator_cases separated with comma | ⟨r, rfl, ends⟩
      · obtain ⟨after, rfl, afterTrivial⟩ := exists_gap_of_left_trivia comma
        obtain ⟨word, rfl, some, reread⟩ := item afterTrivial (by simp) first
        have shorter : w.length < n := by
          rw [← length]
          simp only [List.length_append, List.length_cons]
          omega
        obtain ⟨body, rfl, all⟩ := ih _ shorter (by omega) goesOn rfl
        refine ⟨word ++ (after ++ ',' :: body), by simp, fun rest' => ?_⟩
        have shape : word ++ (after ++ ',' :: body) ++ rest' =
            word ++ (after ++ ',' :: (body ++ rest')) := by simp
        rw [shape, reread _ (body ++ rest'), all]
        · rfl
        · intro atEnd
          exact left_separator_comma atEnd (left_trivia_gap afterTrivial (by decide) _)
      · obtain ⟨after, rfl, afterTrivial⟩ := exists_gap_of_left_trivia ends
        obtain ⟨word, rfl, some, reread⟩ := item afterTrivial marked first
        have empty := reads.closed token .nil
        cases (empty r).symm.trans goesOn
        refine ⟨word ++ (after ++ [close]), by simp, fun rest' => ?_⟩
        have shape : word ++ (after ++ [close]) ++ rest' = word ++ (after ++ close :: rest') := by simp
        have closed : read (close :: rest') = .some ([], rest') := empty rest'
        rw [shape, reread _ (close :: rest'), closed]
        · rfl
        · intro atEnd
          exact left_separator_close atEnd (left_trivia_gap afterTrivial token _) other

end Sequence

/-- What is taken before the given gap and mark is taken there whatever follows the mark. -/
def LocalAt (one : List Char → Option (Literal × List Char)) (s gap : List Char) (m : Char)
    (r : List Char) (item : Literal) : Prop :=
  ∃ word, s = word ++ (gap ++ m :: r) ∧
    ∀ r', one (word ++ (gap ++ m :: r')) = some (item, gap ++ m :: r')

section Literals
variable {bound : Nat} (held : Local bound fun s => taken (value s)) {gap r : List Char} {m : Char}
  {literal : Literal}
include held

theorem exists_of_items_local {close : Char} (mark : close ∈ ['}', ']', ')']) {s rest : List Char}
    {entries : List Literal} (short : s.length ≤ bound)
    (read : taken (items close s) = some (entries, rest)) :
    ∃ body, s = body ++ rest ∧ ∀ rest', taken (items close (body ++ rest')) = some (entries, rest') :=
  (readsItems_items close).local mark held short read

theorem local_field : Local bound fieldFrom := by
  intro s gap r field m short trivial mark read
  rw [fieldFrom] at read
  obtain ⟨_ | ⟨c, t⟩, start, read⟩ := Option.bind_eq_some_iff.1 read
  · cases read
  obtain ⟨⟨name, behind⟩, keyRead, read⟩ := Option.bind_eq_some_iff.1 read
  obtain ⟨u, colon, read⟩ := Option.bind_eq_some_iff.1 read
  obtain ⟨⟨content, left⟩, valueRead, same⟩ := Option.map_eq_some_iff.1 read
  cases same
  obtain ⟨before, rfl, beforeTrivial⟩ := exists_gap_of_left_trivia start
  obtain ⟨key, split, named⟩ := exists_of_key keyRead
  obtain ⟨between, rfl, betweenTrivial⟩ := exists_gap_of_left_trivia (left_expect.1 colon)
  rw [split] at short ⊢
  have shorter : u.length ≤ bound := by
    simp only [List.length_append, List.length_cons] at short
    omega
  obtain ⟨front, d, word, rfl, frontTrivial, token, all⟩ := held shorter trivial mark valueRead
  have reread (r' : List Char) : fieldFrom (before ++ (key ++ (between ++ ':' ::
      (front ++ d :: word ++ (gap ++ m :: r'))))) = some ((String.ofList name, content), gap ++ m :: r') := by
    have content : taken (value (front ++ d :: word ++ (gap ++ m :: r'))) = _ := all r'
    rw [fieldFrom_key beforeTrivial named betweenTrivial, content]
    rfl
  obtain ⟨e, later, rfl, begins, -⟩ := taken_key_append named
  refine ⟨before, e, later ++ (between ++ ':' :: (front ++ d :: word)), by simp, beforeTrivial,
    begins, fun r' => ?_⟩
  have shape : before ++ e :: (later ++ (between ++ ':' :: (front ++ d :: word))) ++
      (gap ++ m :: r') = before ++ (e :: later ++ (between ++
        ':' :: (front ++ d :: word ++ (gap ++ m :: r')))) := by simp
  rw [shape, reread]

private theorem exists_of_fields_local {s rest : List Char} {entries : List (String × Literal)}
    (short : s.length ≤ bound) (read : taken (fields s) = some (entries, rest)) :
    ∃ body, s = body ++ rest ∧ ∀ rest', taken (fields (body ++ rest')) = some (entries, rest') :=
  readsItems_fields.local (by decide) (local_field held) short read

theorem exists_of_callFrom_local {callee : String} {w rest : List Char} (short : w.length ≤ bound)
    (read : callFrom callee w = some (literal, rest)) :
    ∃ body, w = body ++ rest ∧ ∀ rest', callFrom callee (body ++ rest') = some (literal, rest') := by
  obtain ⟨⟨entries, left⟩, inside, same⟩ := Option.map_eq_some_iff.1 read
  cases same
  obtain ⟨body, rfl, all⟩ := exists_of_items_local held (by decide) short inside
  refine ⟨body, rfl, fun rest' => ?_⟩
  rw [callFrom, all]
  rfl

omit held in
private theorem namedFrom_new (t : List Char) :
    namedFrom "new" t = (left (trivia t)).bind fun u =>
      (taken (path u)).bind fun callee =>
        (left (expect '(' callee.2)).bind fun w => callFrom (String.ofList callee.1) w := rfl

private theorem localAt_new {t : List Char} (short : t.length ≤ bound)
    (read : namedFrom "new" t = some (literal, gap ++ m :: r)) :
    LocalAt (namedFrom "new") t gap m r literal := by
  obtain ⟨u, start, fromCallee⟩ := Option.bind_eq_some_iff.1 read
  obtain ⟨⟨word, behind⟩, pathRead, fromOpening⟩ := Option.bind_eq_some_iff.1 fromCallee
  obtain ⟨w, entered, inside⟩ := Option.bind_eq_some_iff.1 fromOpening
  obtain ⟨rfl, named, -⟩ := exists_of_path pathRead
  obtain ⟨after, rfl, afterTrivial⟩ := exists_gap_of_left_trivia (left_expect.1 entered)
  obtain ⟨c, later, rfl, part⟩ := exists_cons_of_path named
  rw [List.cons_append] at start
  obtain ⟨before, rfl, trivial⟩ := exists_gap_of_left_trivia start
  have shorter : w.length ≤ bound := by
    simp only [List.length_append, List.length_cons] at short
    omega
  obtain ⟨body, rfl, all⟩ := exists_of_callFrom_local held shorter inside
  refine ⟨before ++ c :: (later ++ (after ++ '(' :: body)), by simp, fun r' => ?_⟩
  have shape : before ++ c :: (later ++ (after ++ '(' :: body)) ++ (gap ++ m :: r') =
      before ++ c :: (later ++ (after ++ '(' :: (body ++ (gap ++ m :: r')))) := by simp
  have stops : Stops (after ++ '(' :: (body ++ (gap ++ m :: r'))) :=
    stops_trivia afterTrivial fun _ => Stops.cons (by decide +kernel) _
  have callee : taken (path (c :: (later ++ (after ++ '(' :: (body ++ (gap ++ m :: r')))))) =
      some (c :: later, after ++ '(' :: (body ++ (gap ++ m :: r'))) := taken_path_append named stops
  have entered : left (expect '(' (after ++ '(' :: (body ++ (gap ++ m :: r')))) =
      some (body ++ (gap ++ m :: r')) := left_expect.2 (left_trivia_gap afterTrivial (by decide) _)
  rw [shape, namedFrom_new, left_trivia_gap trivial (isToken_of_isIdentifierPart part),
    Option.bind_some, callee, Option.bind_some, entered, Option.bind_some, all]

private theorem localAt_plain {name : String} (free : name ∉ reserved) {t : List Char}
    (short : t.length ≤ bound) (trivial : Trivia gap) (mark : m ∈ [',', '}', ']', ')'])
    (read : namedFrom name t = some (literal, gap ++ m :: r)) :
    LocalAt (namedFrom name) t gap m r literal := by
  rw [namedFrom_of_notMem free] at read
  obtain ⟨u, start, plain⟩ := Option.bind_eq_some_iff.1 read
  rw [plainFrom] at plain
  split at plain
  · next arrow =>
    obtain ⟨later, rfl⟩ := arrow
    obtain ⟨before, rfl, beforeTrivial⟩ := exists_gap_of_left_trivia start
    have behind (later : List Char) :
        left (callback 0 (before ++ '=' :: '>' :: later)) = left (callback 0 later) := by
      rw [left_callback_trivia beforeTrivial,
        left_callback_plain _ _ (by decide) (leftComment_of_ne_slash (by decide) _),
        left_callback_plain _ _ (by decide) (leftComment_of_ne_slash (by decide) _)]
    obtain ⟨rest, passed, same⟩ := Option.map_eq_some_iff.1 plain
    cases same
    obtain ⟨rfl, code, rfl, all⟩ := exists_of_callback_gap trivial ((behind later).symm.trans passed)
    refine ⟨before ++ '=' :: '>' :: code, by simp, fun r' => ?_⟩
    have shape : before ++ '=' :: '>' :: code ++ ([] ++ m :: r') =
        before ++ '=' :: '>' :: (code ++ m :: r') := by simp
    rw [shape, namedFrom_of_notMem free, left_trivia_gap beforeTrivial (by decide),
      Option.bind_some, plainFrom_arrow _ _ rfl, behind, all]
    rfl
  split at plain
  · next opens =>
    obtain ⟨w, rfl⟩ := List.head?_eq_some_iff.1 opens
    obtain ⟨w', entered, inside⟩ := Option.bind_eq_some_iff.1 plain
    cases (left_trivia_token (by decide) w).symm.trans (left_expect.1 entered)
    obtain ⟨before, rfl, beforeTrivial⟩ := exists_gap_of_left_trivia start
    have shorter : w.length ≤ bound := by
      simp only [List.length_append, List.length_cons] at short
      omega
    obtain ⟨body, rfl, all⟩ := exists_of_callFrom_local held shorter inside
    refine ⟨before ++ '(' :: body, by simp, fun r' => ?_⟩
    have opens : left (trivia (before ++ '(' :: body ++ (gap ++ m :: r'))) =
        some ('(' :: (body ++ (gap ++ m :: r'))) := by
      rw [List.append_assoc]
      exact left_trivia_gap beforeTrivial (by decide) _
    have entered : left (expect '(' ('(' :: (body ++ (gap ++ m :: r')))) =
        some (body ++ (gap ++ m :: r')) := left_expect.2 (left_trivia_token (by decide) _)
    rw [namedFrom_of_notMem free, opens, Option.bind_some, plainFrom_opens _ _ rfl, entered,
      Option.bind_some, all]
  · cases plain
    refine ⟨[], rfl, fun r' => ?_⟩
    rw [namedFrom_of_notMem free]
    exact plainFrom_follows (.mark trivial mark) _ _

private theorem localAt_named {name : String} {t : List Char} (short : t.length ≤ bound)
    (trivial : Trivia gap) (mark : m ∈ [',', '}', ']', ')'])
    (read : namedFrom name t = some (literal, gap ++ m :: r)) :
    LocalAt (namedFrom name) t gap m r literal := by
  by_cases listed : name ∈ reserved
  · have callback (announced : ∀ t, namedFrom name t =
        (left (callback 0 t)).map fun rest => (.callback, rest)) :
        LocalAt (namedFrom name) t gap m r literal := by
      rw [announced] at read
      obtain ⟨rest, passed, same⟩ := Option.map_eq_some_iff.1 read
      cases same
      obtain ⟨rfl, code, rfl, all⟩ := exists_of_callback_gap trivial passed
      refine ⟨code, rfl, fun r' => ?_⟩
      rw [announced, List.nil_append, all]
      rfl
    simp only [reserved, List.mem_cons, List.not_mem_nil, or_false] at listed
    rcases listed with rfl | rfl | rfl | rfl | rfl | rfl | rfl
    · cases read
      exact ⟨[], rfl, fun r' => rfl⟩
    · cases read
      exact ⟨[], rfl, fun r' => rfl⟩
    · cases read
      exact ⟨[], rfl, fun r' => rfl⟩
    · cases read
      exact ⟨[], rfl, fun r' => rfl⟩
    · exact callback fun t => rfl
    · exact callback fun t => rfl
    · exact localAt_new held short read
  · exact localAt_plain held listed short trivial mark read

private theorem localAt_word {c : Char} {t : List Char} (short : t.length ≤ bound)
    (trivial : Trivia gap) (mark : m ∈ [',', '}', ']', ')'])
    (read : wordFrom (c :: t) = some (literal, gap ++ m :: r)) :
    LocalAt (fun t => wordFrom (c :: t)) t gap m r literal := by
  have found := read
  rw [wordFrom, valueFrom] at found
  split at found
  · next brace =>
    obtain ⟨⟨entries, left⟩, inside, same⟩ := Option.map_eq_some_iff.1 found
    cases same
    obtain ⟨body, rfl, all⟩ := exists_of_fields_local held short inside
    refine ⟨body, rfl, fun r' => ?_⟩
    rw [brace]
    exact congrArg (Option.map _) (all _)
  split at found
  · next bracket =>
    obtain ⟨⟨entries, left⟩, inside, same⟩ := Option.map_eq_some_iff.1 found
    cases same
    obtain ⟨body, rfl, all⟩ := exists_of_items_local held (by decide) short inside
    refine ⟨body, rfl, fun r' => ?_⟩
    rw [bracket]
    exact congrArg (Option.map _) (all _)
  -- words of the grammar are read wherever they stand
  have written {word : List Char} (split : c :: t = word ++ (gap ++ m :: r))
      (value : Value word literal) : LocalAt (fun t => wordFrom (c :: t)) t gap m r literal := by
    obtain ⟨d, body, rfl, -, -⟩ := exists_start value
    cases split
    exact ⟨body, rfl, fun r' => wordFrom_append value (.mark trivial mark)⟩
  split at found
  · next isQuote =>
    obtain ⟨⟨text, left⟩, inside, same⟩ := Option.map_eq_some_iff.1 found
    cases same
    obtain ⟨body, rfl, quoted⟩ := exists_of_quoted _ isQuote inside
    exact written (by simp) (.string isQuote quoted)
  split at found
  · next backtick =>
    obtain ⟨⟨interpolated, left⟩, inside, same⟩ := Option.map_eq_some_iff.1 found
    obtain ⟨raw, rfl, template⟩ := exists_of_template inside
    dsimp only at same
    rw [take_raw] at same
    cases same
    exact written (by simp [backtick]) (.template template)
  split at found
  · next parenthesis =>
    obtain ⟨rest, passed, same⟩ := Option.map_eq_some_iff.1 found
    cases same
    obtain ⟨rfl, code, rfl, all⟩ := exists_of_callback_gap trivial passed
    refine ⟨code, rfl, fun r' => ?_⟩
    rw [parenthesis]
    exact congrArg (Option.map _) (all r')
  split at found
  · next begins =>
    obtain ⟨⟨word, left⟩, inside, same⟩ := Option.map_eq_some_iff.1 found
    cases same
    obtain ⟨split, number⟩ := exists_of_number begins inside
    exact written split (.number number)
  split at found
  · next start =>
    obtain ⟨⟨word, behind⟩, pathRead, inside⟩ := Option.bind_eq_some_iff.1 found
    obtain ⟨split, named, -⟩ := exists_of_path pathRead
    have stops := stops_of_path pathRead
    obtain ⟨d, later, rfl, -⟩ := exists_cons_of_path named
    rw [List.cons_append, List.cons.injEq] at split
    obtain ⟨rfl, rfl⟩ := split
    have shorter : behind.length ≤ bound := by
      simp only [List.length_append] at short
      omega
    obtain ⟨u, rfl, all⟩ := localAt_named held shorter trivial mark inside
    refine ⟨later ++ u, by simp, fun r' => ?_⟩
    have stopsAgain : Stops (u ++ (gap ++ m :: r')) := by
      cases u with
      | nil => exact stops_trivia trivial fun _ => Stops.cons (marks mark).2 _
      | cons e u => exact Stops.cons (stops e rfl) _
    have whole := wordFrom_path named (by simpa using start) stopsAgain
    dsimp only
    rw [List.append_assoc, ← List.cons_append, whole]
    exact all r'
  · cases found

end Literals

theorem beginsLiteral_of_wordFrom {c : Char} {t : List Char} {found : Literal × List Char}
    (read : wordFrom (c :: t) = some found) : BeginsLiteral c := by
  have signs : ∀ c ∈ ['{', '[', '\'', '"', '`', '('], BeginsLiteral c :=
    forall_mem_of_all (by decide)
  by_cases sign : c ∈ ['{', '[', '\'', '"', '`', '(']
  · exact signs c sign
  · rw [wordFrom_other sign] at read
    split at read
    · next begins => exact beginsLiteral_of_beginsNumber begins
    split at read
    · next start => exact beginsLiteral_of_isIdentifierStart start
    · cases read

theorem local_value (bound : Nat) : Local bound fun s => taken (value s) := by
  induction bound using Nat.strong_induction_on with
  | _ bound shorter =>
    intro s gap r literal m short trivial mark read
    dsimp only at read
    rw [taken_value] at read
    obtain ⟨_ | ⟨c, t⟩, start, here⟩ := Option.bind_eq_some_iff.1 read
    · cases here
    · obtain ⟨before, rfl, beforeTrivial⟩ := exists_gap_of_left_trivia start
      have less : t.length < bound := by
        simp only [List.length_append, List.length_cons] at short
        omega
      have token := (beginsLiteral_of_wordFrom here).1
      obtain ⟨word, rfl, all⟩ := localAt_word (shorter _ less) le_rfl trivial mark here
      refine ⟨before, c, word, by simp, beforeTrivial, token, fun r' => ?_⟩
      dsimp only
      rw [List.append_assoc, taken_value, List.cons_append, left_trivia_gap beforeTrivial token]
      exact all r'

end CommandReference.Literal.Reader
