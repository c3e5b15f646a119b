import CommandReference.Proofs.Literal.Grammar
import CommandReference.Proofs.Text.Part

/-! The trivia reader against the grammar. What a reader leaves is looked at as a plain
list, without the proof that it is an end of the text, so that what a reader does to a text
is an equation between options. -/
namespace CommandReference.Literal.Reader
open Text Grammar

section Seen
variable {α β γ δ : Type} {p : List Char → Prop}

/-- What is seen of the result of a reader that does not fail. -/
def seen (see : α → γ) (result : Except Failure α) : Option γ := result.toOption.map see

abbrev left (result : Except Failure { r : List Char // p r }) : Option (List Char) :=
  seen Subtype.val result

abbrev taken (result : Except Failure (α × { r : List Char // p r })) :
    Option (α × List Char) :=
  seen (Prod.map id Subtype.val) result

theorem seen_ite (see : α → γ) (c : Prop) [Decidable c] (yes no : Except Failure α) :
    seen see (if c then yes else no) = if c then seen see yes else seen see no :=
  apply_ite _ _ _ _

theorem seen_bind {see : α → γ} {seeLater : β → δ} {result : Except Failure α}
    {later : α → Except Failure β} {follow : γ → Option δ}
    (same : ∀ a, seen seeLater (later a) = follow (see a)) :
    seen seeLater (result >>= later) = (seen see result).bind follow := by
  cases result with
  | error failure => rfl
  | ok a => exact same a

theorem seen_map {see : α → γ} {seeLater : β → δ} {result : Except Failure α}
    {later : α → Except Failure β} {follow : γ → δ}
    (same : ∀ a, seen seeLater (later a) = some (follow (see a))) :
    seen seeLater (result >>= later) = (seen see result).map follow := by
  cases result with
  | error failure => rfl
  | ok a => exact same a

end Seen

theorem afterBlockComment_close (r : List Char) :
    (afterBlockComment ('*' :: '/' :: r)).map Subtype.val = some r := rfl

theorem afterBlockComment_cons {c : Char} {r : List Char} (unclosed : ¬ ['*', '/'] <+: c :: r) :
    (afterBlockComment (c :: r)).map Subtype.val = (afterBlockComment r).map Subtype.val := by
  rw [afterBlockComment, Option.map_map]
  · rfl
  · rintro later rfl rfl
    exact unclosed ⟨later, rfl⟩

theorem afterBlockComment_append {body : List Char} (unclosed : ¬ ['*', '/'] <:+: body)
    (rest : List Char) :
    (afterBlockComment (body ++ '*' :: '/' :: rest)).map Subtype.val = some rest := by
  induction body with
  | nil => exact afterBlockComment_close rest
  | cons c body ih =>
    rw [List.infix_cons_iff, not_or] at unclosed
    rw [List.cons_append, afterBlockComment_cons, ih unclosed.2]
    -- a comment that ends in a star is not closed by that star
    rintro ⟨later, same⟩
    cases body with
    | nil => simp at same
    | cons d body =>
      apply unclosed.1
      simp only [List.cons_append, List.nil_append, List.cons.injEq] at same
      obtain ⟨rfl, rfl, same⟩ := same
      exact ⟨body, rfl⟩

theorem exists_of_afterBlockComment {s rest : List Char}
    (read : (afterBlockComment s).map Subtype.val = some rest) :
    ∃ body, s = body ++ '*' :: '/' :: rest ∧ ¬ ['*', '/'] <:+: body := by
  induction s with
  | nil => cases read
  | cons c r ih =>
    by_cases close : ['*', '/'] <+: c :: r
    · obtain ⟨later, same⟩ := close
      rw [← same] at read ⊢
      cases (afterBlockComment_close later).symm.trans read
      exact ⟨[], rfl, by simp⟩
    · rw [afterBlockComment_cons close] at read
      obtain ⟨body, rfl, unclosed⟩ := ih read
      refine ⟨c :: body, rfl, ?_⟩
      rw [List.infix_cons_iff, not_or]
      refine ⟨fun early => close ?_, unclosed⟩
      exact early.trans (List.prefix_append (c :: body) _)

abbrev leftComment (s : List Char) : Option (Option (List Char)) :=
  seen (Option.map Subtype.val) (comment s)

theorem leftComment_line (r : List Char) :
    leftComment ('/' :: '/' :: r) = some (some (r.dropWhile (· != '\n'))) := rfl

theorem leftComment_block (r : List Char) :
    leftComment ('/' :: '*' :: r) = (afterBlockComment r).map fun rest => some rest.1 := by
  rw [leftComment, comment]
  cases afterBlockComment r with
  | none => rfl
  | some rest => rfl

theorem leftComment_of_ne {s : List Char} (line : ¬ ['/', '/'] <+: s) (block : ¬ ['/', '*'] <+: s) :
    leftComment s = some none := by
  rw [leftComment, comment]
  · rfl
  · rintro r rfl
    exact line ⟨r, rfl⟩
  · rintro r rfl
    exact block ⟨r, rfl⟩

theorem left_trivia (s : List Char) :
    left (trivia s) = (leftComment (s.dropWhile isBlank)).bind fun found =>
      match found with
      | none => some (s.dropWhile isBlank)
      | some t => left (trivia t) := by
  rw [trivia]
  refine seen_bind fun found => ?_
  cases found with
  | none => rfl
  | some t =>
    exact (seen_map fun rest => rfl).trans Option.map_id'

theorem left_trivia_blank {c : Char} (blank : isBlank c = true) (r : List Char) :
    left (trivia (c :: r)) = left (trivia r) := by
  rw [left_trivia, left_trivia r, List.dropWhile_cons_of_pos blank]

theorem left_trivia_cons {c : Char} (kept : isBlank c = false) (r : List Char) :
    left (trivia (c :: r)) = (leftComment (c :: r)).bind fun found =>
      match found with
      | none => some (c :: r)
      | some t => left (trivia t) := by
  have stop : (c :: r).dropWhile isBlank = c :: r := List.dropWhile_cons_of_neg (by simp [kept])
  rw [left_trivia, stop]

theorem left_trivia_nil : left (trivia []) = some [] := left_trivia []

/-- A character that begins a token. -/
def IsToken (c : Char) : Prop := isBlank c = false ∧ c ≠ '/'

instance (c : Char) : Decidable (IsToken c) := inferInstanceAs (Decidable (_ ∧ _))

theorem left_trivia_token {c : Char} (token : IsToken c) (r : List Char) :
    left (trivia (c :: r)) = some (c :: r) := by
  rw [left_trivia_cons token.1, leftComment_of_ne]
  · rfl
  · rintro ⟨later, same⟩
    exact token.2 (List.cons.inj same).1.symm
  · rintro ⟨later, same⟩
    exact token.2 (List.cons.inj same).1.symm

theorem left_trivia_line (r : List Char) :
    left (trivia ('/' :: '/' :: r)) = left (trivia (r.dropWhile (· != '\n'))) := by
  rw [left_trivia_cons (by decide), leftComment_line]
  rfl

theorem left_trivia_block (r : List Char) :
    left (trivia ('/' :: '*' :: r)) =
      ((afterBlockComment r).map Subtype.val).bind fun t => left (trivia t) := by
  rw [left_trivia_cons (by decide), leftComment_block]
  cases afterBlockComment r with
  | none => rfl
  | some t => rfl

/-- Trivia before a text are passed over. -/
theorem left_trivia_append {gap : List Char} (trivial : Trivia gap) (s : List Char) :
    left (trivia (gap ++ s)) = left (trivia s) := by
  induction trivial with
  | nil => rfl
  | blank blank _ ih => rw [List.cons_append, left_trivia_blank blank, ih]
  | @line body later inside _ ih =>
    have shape : '/' :: '/' :: body ++ '\n' :: later ++ s =
        '/' :: '/' :: (body ++ '\n' :: (later ++ s)) := by simp
    rw [shape, left_trivia_line, dropWhile_run (bne_of_notMem inside) (by simp),
      left_trivia_blank (by decide), ih]
  | @block body later unclosed _ ih =>
    have shape : '/' :: '*' :: body ++ '*' :: '/' :: later ++ s =
        '/' :: '*' :: (body ++ '*' :: '/' :: (later ++ s)) := by simp
    rw [shape, left_trivia_block, afterBlockComment_append unclosed]
    exact ih

theorem left_trivia_gap {gap : List Char} (trivial : Trivia gap) {c : Char} (token : IsToken c)
    (r : List Char) : left (trivia (gap ++ c :: r)) = some (c :: r) := by
  rw [left_trivia_append trivial, left_trivia_token token]

theorem left_trivia_ending {s : List Char} (ending : Ending s) : left (trivia s) = some [] := by
  cases ending with
  | trivia trivial =>
    have passed := left_trivia_append trivial []
    rwa [List.append_nil, left_trivia_nil] at passed
  | @comment gap body trivial inside =>
    have all : body.dropWhile (· != '\n') = [] :=
      List.dropWhile_eq_nil_iff.2 (bne_of_notMem inside)
    rw [left_trivia_append trivial, left_trivia_line, all, left_trivia_nil]

/-- What the trivia reader does first: it stops, fails, passes over all of the text, or passes
over a piece of trivia and goes on behind it. -/
theorem left_trivia_cases (s : List Char) :
    left (trivia s) = some s ∨ left (trivia s) = none ∨ (Ending s ∧ left (trivia s) = some []) ∨
      ∃ piece later, s = piece ++ later ∧ piece ≠ [] ∧ Trivia piece ∧
        left (trivia s) = left (trivia later) := by
  cases s with
  | nil => exact .inl left_trivia_nil
  | cons c r =>
    cases blank : isBlank c with
    | true =>
      exact .inr (.inr (.inr ⟨[c], r, rfl, List.cons_ne_nil _ _, .blank blank .nil,
        left_trivia_blank blank r⟩))
    | false =>
      by_cases line : ['/', '/'] <+: c :: r
      · obtain ⟨s, same⟩ := line
        rw [← same]
        rcases notMem_or_exists_append '\n' s with inside | ⟨body, later, rfl, inside⟩
        · have ending : Ending ('/' :: '/' :: s) := .comment .nil inside
          exact .inr (.inr (.inl ⟨ending, left_trivia_ending ending⟩))
        · have trivial : Trivia ('/' :: '/' :: body ++ ['\n']) := .line inside .nil
          refine .inr (.inr (.inr ⟨_, later, by simp, List.cons_ne_nil _ _, trivial, ?_⟩))
          have passed := left_trivia_append trivial later
          rwa [List.append_assoc] at passed
      · by_cases block : ['/', '*'] <+: c :: r
        · obtain ⟨s, same⟩ := block
          rw [← same]
          cases found : (afterBlockComment s).map Subtype.val with
          | none =>
            have fails := left_trivia_block s
            rw [found] at fails
            exact .inr (.inl fails)
          | some later =>
            obtain ⟨body, rfl, unclosed⟩ := exists_of_afterBlockComment found
            have trivial : Trivia ('/' :: '*' :: body ++ ['*', '/']) := .block unclosed .nil
            refine .inr (.inr (.inr ⟨_, later, by simp, List.cons_ne_nil _ _, trivial, ?_⟩))
            have passed := left_trivia_append trivial later
            rwa [List.append_assoc] at passed
        · left
          rw [left_trivia_cons blank, leftComment_of_ne line block]
          rfl

/-- What the trivia reader passes over: trivia, or all of the text. -/
def Passed (gap rest : List Char) : Prop := Trivia gap ∨ rest = [] ∧ Ending gap

theorem exists_of_left_trivia {s rest : List Char} (read : left (trivia s) = some rest) :
    ∃ gap, s = gap ++ rest ∧ Passed gap rest := by
  induction length : s.length using Nat.strong_induction_on generalizing s with
  | _ n ih =>
    rcases left_trivia_cases s with
      stop | fails | ⟨ending, all⟩ | ⟨piece, later, rfl, some, trivial, on⟩
    · cases stop.symm.trans read
      exact ⟨[], rfl, .inl .nil⟩
    · cases fails.symm.trans read
    · cases all.symm.trans read
      exact ⟨s, (List.append_nil s).symm, .inr ⟨rfl, ending⟩⟩
    · have shorter : later.length < n := by
        rw [← length, List.length_append]
        exact Nat.lt_add_of_pos_left (List.length_pos_iff.2 some)
      obtain ⟨gap, rfl, passed⟩ := ih _ shorter (on.symm.trans read) rfl
      refine ⟨piece ++ gap, (List.append_assoc _ _ _).symm, ?_⟩
      rcases passed with gapTrivial | ⟨all, ending⟩
      · exact .inl (trivial.append gapTrivial)
      · exact .inr ⟨all, ending.append trivial⟩

theorem exists_gap_of_left_trivia {s r : List Char} {c : Char}
    (read : left (trivia s) = some (c :: r)) : ∃ gap, s = gap ++ c :: r ∧ Trivia gap := by
  obtain ⟨gap, same, trivial | ⟨all, ending⟩⟩ := exists_of_left_trivia read
  · exact ⟨gap, same, trivial⟩
  · cases all

theorem ending_of_left_trivia {s : List Char} (read : left (trivia s) = some []) : Ending s := by
  obtain ⟨gap, rfl, trivial | ⟨-, ending⟩⟩ := exists_of_left_trivia read
  · rw [List.append_nil]
    exact .trivia trivial
  · rwa [List.append_nil]

abbrev leftNext (s : List Char) : Option (Option (Char × List Char)) :=
  seen (Option.map (Prod.map id Subtype.val)) (next s)

theorem leftNext_eq (s : List Char) :
    leftNext s = (left (trivia s)).map fun t =>
      match t with
      | [] => none
      | c :: r => some (c, r) := by
  rw [leftNext, next]
  refine seen_map fun t => ?_
  obtain ⟨_ | ⟨c, r⟩, inside⟩ := t
  · rfl
  · rfl

theorem left_expect {wanted : Char} {s rest : List Char} :
    left (expect wanted s) = some rest ↔ left (trivia s) = some (wanted :: rest) := by
  have read : left (expect wanted s) = (leftNext s).bind fun found =>
      match found with
      | none => none
      | some (c, r) => if c = wanted then some r else none := by
    rw [expect]
    refine seen_bind fun found => ?_
    rcases found with _ | ⟨c, r⟩
    · rfl
    · exact seen_ite _ _ _ _
  rw [read, leftNext_eq]
  rcases left (trivia s) with _ | _ | ⟨c, r⟩
  · simp
  · simp
  · simp

theorem left_separator (close : Char) (atEnd : Problem) (s : List Char) :
    left (separator close atEnd s) = (left (trivia s)).bind fun t =>
      match t with
      | [] => none
      | c :: r => if c = ',' then some r else if c = close then some (c :: r) else none := by
  rw [separator]
  refine seen_bind fun t => ?_
  obtain ⟨_ | ⟨c, r⟩, inside⟩ := t
  · rfl
  · exact (seen_ite _ _ _ _).trans (congrArg _ (seen_ite _ _ _ _))

theorem left_separator_comma {close : Char} {s r : List Char} (atEnd : Problem)
    (found : left (trivia s) = some (',' :: r)) : left (separator close atEnd s) = some r := by
  rw [left_separator, found]
  rfl

theorem left_separator_close {close : Char} {s r : List Char} (atEnd : Problem)
    (found : left (trivia s) = some (close :: r)) (other : close ≠ ',') :
    left (separator close atEnd s) = some (close :: r) := by
  rw [left_separator, found, Option.bind_some]
  exact (if_neg other).trans (if_pos rfl)

theorem left_separator_cases {close : Char} {atEnd : Problem} {s rest : List Char}
    (read : left (separator close atEnd s) = some rest) :
    left (trivia s) = some (',' :: rest) ∨
      ∃ r, rest = close :: r ∧ left (trivia s) = some (close :: r) := by
  rw [left_separator] at read
  obtain ⟨_ | ⟨c, r⟩, found, read⟩ := Option.bind_eq_some_iff.1 read
  · cases read
  · dsimp only at read
    by_cases comma : c = ','
    · rw [if_pos comma] at read
      cases read
      exact .inl (comma ▸ found)
    · rw [if_neg comma] at read
      by_cases closes : c = close
      · rw [if_pos closes] at read
        cases read
        exact .inr ⟨r, closes ▸ rfl, closes ▸ found⟩
      · rw [if_neg closes] at read
        cases read

end CommandReference.Literal.Reader
