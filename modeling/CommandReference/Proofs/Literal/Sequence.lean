import CommandReference.Proofs.Literal.Word

/-! Readers of items between brackets against the grammar, for any reader of one item. -/
namespace CommandReference.Literal.Reader
open Text Grammar

/-- What may follow an item: the end of the text, a comma or a closing bracket. -/
inductive Follows : List Char → Prop where
  | ending {rest : List Char} : Ending rest → Follows rest
  | mark {gap r : List Char} {c : Char} : Trivia gap → c ∈ [',', '}', ']', ')'] →
      Follows (gap ++ c :: r)

theorem marks {c : Char} (mark : c ∈ [',', '}', ']', ')']) : IsToken c ∧ EndsWord c := by
  have all : ∀ c ∈ [',', '}', ']', ')'], IsToken c ∧ EndsWord c :=
    forall_mem_of_all (by decide +kernel)
  exact all c mark

theorem Follows.stops {rest : List Char} (follows : Follows rest) : Stops rest := by
  cases follows with
  | mark trivial mark => exact stops_trivia trivial fun _ => Stops.cons (marks mark).2 _
  | ending ending =>
    cases ending with
    | trivia trivial =>
      rw [← List.append_nil rest]
      exact stops_trivia trivial fun _ => by simp [Stops]
    | comment trivial _ =>
      exact stops_trivia trivial fun _ => Stops.cons (by decide +kernel) _

theorem Follows.left_trivia {rest : List Char} (follows : Follows rest) :
    left (trivia rest) = some [] ∨
      ∃ c r, c ∈ [',', '}', ']', ')'] ∧ left (trivia rest) = some (c :: r) := by
  cases follows with
  | ending ending => exact .inl (left_trivia_ending ending)
  | mark trivial mark =>
    exact .inr ⟨_, _, mark, left_trivia_gap trivial (marks mark).1 _⟩

section Sequence
variable {α : Type} {close : Char} {one : List Char → Option (α × List Char)}
  {read : List Char → Option (List α × List Char)} {Item : List Char → α → Prop}

/-- How a reader of items uses a reader of one item. -/
def ReadsItems (close : Char) (one : List Char → Option (α × List Char))
    (read : List Char → Option (List α × List Char)) : Prop :=
  ∃ atEnd, ∀ s, read s = (left (trivia s)).bind fun t =>
    if t.head? = some close then some ([], t.tail)
    else (one s).bind fun item =>
      (left (separator close atEnd item.2)).bind fun w =>
        (read w).map fun later => (item.1 :: later.1, later.2)

/-- A word is read as an item wherever it stands. -/
structure Reads (close : Char) (one : List Char → Option (α × List Char)) (word : List Char)
    (item : α) : Prop where
  start : ∃ c body, word = c :: body ∧ IsToken c ∧ c ≠ close
  read : ∀ {gap rest : List Char}, Trivia gap → Follows rest →
    one (gap ++ word ++ rest) = some (item, rest)

theorem ReadsItems.closed (reads : ReadsItems close one read) (mark : IsToken close)
    {gap : List Char} (trivial : Trivia gap) (rest : List Char) :
    read (gap ++ close :: rest) = some ([], rest) := by
  obtain ⟨atEnd, reads⟩ := reads
  rw [reads, left_trivia_gap trivial mark]
  simp

/-- An item is taken, then what separates it from the next one, then the items behind it. -/
theorem ReadsItems.one_then (reads : ReadsItems close one read) {gap body rest w : List Char}
    {c : Char} {item : α} (trivial : Trivia gap) (token : IsToken c) (apart : c ≠ close)
    (first : one (gap ++ c :: body ++ rest) = some (item, rest))
    (separated : ∀ atEnd, left (separator close atEnd rest) = some w) :
    read (gap ++ c :: body ++ rest) = (read w).map fun later => (item :: later.1, later.2) := by
  obtain ⟨atEnd, reads⟩ := reads
  have start : left (trivia (gap ++ c :: body ++ rest)) = some (c :: (body ++ rest)) := by
    rw [List.append_assoc]
    exact left_trivia_gap trivial token _
  have other : (c :: (body ++ rest)).head? ≠ some close := fun same => apart (Option.some.inj same)
  rw [reads, start, Option.bind_some, if_neg other, first, Option.bind_some, separated,
    Option.bind_some]

theorem ReadsItems.item (reads : ReadsItems close one read) {gap word : List Char}
    {item : α} (trivial : Trivia gap) (ready : Reads close one word item) {rest w : List Char}
    (follows : Follows rest) (separated : ∀ atEnd, left (separator close atEnd rest) = some w) :
    read (gap ++ word ++ rest) = (read w).map fun later => (item :: later.1, later.2) := by
  have first := ready.read trivial follows
  obtain ⟨c, body, rfl, token, apart⟩ := ready.start
  exact reads.one_then trivial token apart first separated

theorem ReadsItems.append (reads : ReadsItems close one read) (mark : close ∈ ['}', ']', ')'])
    {body : List Char} {items : List α} (separated : Separated Item body items)
    (ready : ∀ {word item}, Item word item → word.length ≤ body.length →
      Reads close one word item) (rest : List Char) :
    read (body ++ close :: rest) = some (items, rest) := by
  have marked : close ∈ [',', '}', ']', ')'] := List.mem_cons_of_mem _ mark
  have token := (marks marked).1
  have other : close ≠ ',' := by
    rintro rfl
    revert mark
    decide
  induction separated with
  | nil trivial => exact reads.closed token trivial rest
  | @last before word after item first held trivial =>
    have follows : Follows (after ++ close :: rest) := .mark trivial marked
    have separated (atEnd : Problem) :
        left (separator close atEnd (after ++ close :: rest)) = some (close :: rest) :=
      left_separator_close atEnd (left_trivia_gap trivial token rest) other
    have short : word.length ≤ (before ++ word ++ after).length := by
      simp only [List.length_append]
      omega
    have empty := reads.closed token .nil rest
    rw [List.append_assoc, reads.item first (ready held short) follows separated]
    exact congrArg (Option.map _) empty
  | @cons before word after later item items first held trivial _ ih =>
    have follows : Follows (after ++ ',' :: (later ++ close :: rest)) := .mark trivial (by simp)
    have separated (atEnd : Problem) :
        left (separator close atEnd (after ++ ',' :: (later ++ close :: rest))) =
          some (later ++ close :: rest) :=
      left_separator_comma atEnd (left_trivia_gap trivial (by decide) _)
    have short : word.length ≤ (before ++ word ++ after ++ ',' :: later).length := by
      simp only [List.length_append]
      omega
    have shape : before ++ word ++ after ++ ',' :: later ++ close :: rest =
        before ++ word ++ (after ++ ',' :: (later ++ close :: rest)) := by simp
    rw [shape, reads.item first (ready held short) follows separated, ih]
    · rfl
    · intro word item held shorter
      refine ready held (shorter.trans ?_)
      simp only [List.length_append, List.length_cons]
      omega

/-- In texts up to a length, a plain item is read only where a word stands that writes it. -/
def ReadsOnly (bound : Nat) (one : List Char → Option (α × List Char)) (Plain : α → Prop)
    (Item : List Char → α → Prop) : Prop :=
  ∀ {s rest : List Char} {item : α}, s.length ≤ bound → one s = some (item, rest) → Plain item →
    ∃ gap word, s = gap ++ word ++ rest ∧ word ≠ [] ∧ Trivia gap ∧ Item word item

theorem ReadsItems.sound (reads : ReadsItems close one read) (mark : IsToken close) {bound : Nat}
    {Plain : α → Prop} (only : ReadsOnly bound one Plain Item) {s rest : List Char}
    {items : List α} (short : s.length ≤ bound) (found : read s = some (items, rest))
    (plain : ∀ item ∈ items, Plain item) :
    ∃ body, s = body ++ close :: rest ∧ Separated Item body items := by
  obtain ⟨atEnd, equation⟩ := id reads
  induction length : s.length using Nat.strong_induction_on generalizing s items with
  | _ n ih =>
    rw [equation] at found
    obtain ⟨t, start, found⟩ := Option.bind_eq_some_iff.1 found
    by_cases closes : t.head? = some close
    · rw [if_pos closes] at found
      obtain ⟨r, rfl⟩ := List.head?_eq_some_iff.1 closes
      cases found
      obtain ⟨gap, rfl, trivial⟩ := exists_gap_of_left_trivia start
      exact ⟨gap, rfl, .nil trivial⟩
    · rw [if_neg closes] at found
      obtain ⟨⟨item, behind⟩, first, found⟩ := Option.bind_eq_some_iff.1 found
      obtain ⟨w, separated, found⟩ := Option.bind_eq_some_iff.1 found
      obtain ⟨⟨later, left⟩, goesOn, joined⟩ := Option.map_eq_some_iff.1 found
      cases joined
      rw [List.forall_mem_cons] at plain
      obtain ⟨gap, word, rfl, some, trivial, held⟩ := only short first plain.1
      rcases left_separator_cases separated with comma | ⟨r, rfl, ends⟩
      · obtain ⟨after, rfl, afterTrivial⟩ := exists_gap_of_left_trivia comma
        have shorter : w.length < n := by
          rw [← length]
          simp only [List.length_append, List.length_cons]
          omega
        obtain ⟨body, rfl, inside⟩ := ih _ shorter (by omega) goesOn plain.2 rfl
        exact ⟨gap ++ word ++ after ++ ',' :: body, by simp, .cons trivial held afterTrivial inside⟩
      · obtain ⟨after, rfl, afterTrivial⟩ := exists_gap_of_left_trivia ends
        cases (reads.closed mark .nil r).symm.trans goesOn
        exact ⟨gap ++ word ++ after, by simp, .last trivial held afterTrivial⟩

end Sequence

end CommandReference.Literal.Reader
