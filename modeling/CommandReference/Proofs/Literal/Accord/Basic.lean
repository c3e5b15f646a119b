import CommandReference.Proofs.Literal.Trivia
import CommandReference.Proofs.Literal.Walk

/-! Walks along a text do what the readers do. A walk that stands where some rest of the text begins
comes to the place where the reader of that rest leaves off, with the same result, or to the same
error. So every cut is made at boundaries, and every loop ends within as many rounds as there are
characters left. -/
namespace CommandReference.Literal.Reader
open Text Walk

section Accords
variable {α β γ δ : Type} {text s r : List Char}

/-- What a reader gives, with places as positions in the text. -/
def placed (text : List Char) : Except Failure (α × List Char) → Except Error (α × Nat)
  | .ok (a, rest) => .ok (a, offset text rest)
  | .error failure => .error ⟨failure.problem, offset text failure.rest⟩

/-- From where `s` stands in the text, a walk has the outcome of some reading of `s`. -/
def Accords (text : List Char) (work : Walk α) (s : List Char)
    (result : Except Failure (α × List Char)) : Prop :=
  s <:+ text → work.outcome (offset text s) = some (placed text result) ∧
    ∀ found, result = .ok found → found.2 <:+ text

theorem outcome_bind_of_ok {work : Walk α} {later : α → Walk β} {start stop : Nat} {a : α}
    (done : work.outcome start = some (.ok (a, stop))) :
    (work >>= later).outcome start = (later a).outcome stop := by
  change (work.outcome start).bind _ = _
  rw [done]
  rfl

private theorem outcome_bind_of_error {work : Walk α} {later : α → Walk β} {start : Nat}
    {error : Error}
    (failed : work.outcome start = some (.error error)) :
    (work >>= later).outcome start = some (.error error) := by
  change (work.outcome start).bind _ = _
  rw [failed]
  rfl

theorem outcome_bind_of_none {work : Walk α} {later : α → Walk β} {start : Nat}
    (stuck : work.outcome start = none) : (work >>= later).outcome start = none := by
  change (work.outcome start).bind _ = _
  rw [stuck]
  rfl

theorem Accords.step {work : Walk α} {later : α → Walk β} {a : α}
    {result : Except Failure (β × List Char)} (first : Accords text work s (.ok (a, r)))
    (second : Accords text (later a) r result) : Accords text (work >>= later) s result := by
  intro inside
  obtain ⟨done, stays⟩ := first inside
  rw [outcome_bind_of_ok done]
  exact second (stays _ rfl)

theorem Accords.bind {work : Walk α} {later : α → Walk β} {result : Except Failure γ}
    {view : γ → α × List Char} {follow : γ → Except Failure δ} {see : δ → β × List Char}
    (first : Accords text work s (result.map view))
    (second : ∀ found, result = .ok found →
      Accords text (later (view found).1) (view found).2 ((follow found).map see)) :
    Accords text (work >>= later) s ((result >>= follow).map see) := by
  cases result with
  | ok found => exact first.step (second found rfl)
  | error failure =>
    intro inside
    exact ⟨outcome_bind_of_error (first inside).1, by rintro found ⟨⟩⟩

theorem Accords.last {work : Walk α} {result : Except Failure γ} {view : γ → α × List Char}
    {follow : γ → Except Failure δ} {see : δ → α × List Char}
    (here : Accords text work s (result.map view))
    (each : ∀ found, (follow found).map see = .ok (view found)) :
    Accords text work s ((result >>= follow).map see) := by
  cases result with
  | ok found =>
    change Accords text work s ((follow found).map see)
    rw [each]
    exact here
  | error failure => exact here

theorem accords_pure (a : α) : Accords text (pure a) s (.ok (a, s)) := by
  intro inside
  refine ⟨rfl, ?_⟩
  rintro found ⟨⟩
  exact inside

theorem accords_refuse (problem : Problem) :
    Accords text (refuse problem : Walk α) s (.error ⟨problem, s⟩) :=
  fun _ => ⟨rfl, by rintro found ⟨⟩⟩

theorem accords_get : Accords text get s (.ok (offset text s, s)) := by
  intro inside
  refine ⟨rfl, ?_⟩
  rintro found ⟨⟩
  exact inside

theorem accords_set (inside : r <:+ text) :
    Accords text (set (offset text r)) s (.ok (⟨⟩, r)) := by
  intro _
  refine ⟨rfl, ?_⟩
  rintro found ⟨⟩
  exact inside

theorem accords_lift {found : Option α} {a : α} (present : found = some a) :
    Accords text (liftM found) s (.ok (a, s)) := by
  intro inside
  subst present
  refine ⟨rfl, ?_⟩
  rintro found ⟨⟩
  exact inside

theorem accords_advance (part : List Char) {count : Nat} (shape : s = part ++ r)
    (size : count = byteSize part) : Accords text (modify (· + count)) s (.ok (⟨⟩, r)) := by
  intro inside
  subst shape size
  refine ⟨?_, ?_⟩
  · change some (Except.ok (PUnit.unit, offset text (part ++ r) + byteSize part)) = _
    rw [offset_add inside]
    rfl
  · rintro found ⟨⟩
    exact (List.suffix_append part r).trans inside

theorem accords_rest : Accords text (Walk.rest text) s (.ok (s, s)) := by
  intro inside
  exact (accords_get.step (accords_lift (restAt?_offset inside))) inside

theorem accords_peek : Accords text (peek text) s (.ok (s.head?, s)) :=
  accords_rest.step (accords_pure _)

theorem accords_bump (c : Char) (r : List Char) :
    Accords text (bump text) (c :: r) (.ok (some c, r)) :=
  accords_peek.step ((accords_advance [c] rfl rfl).step (accords_pure _))

theorem accords_bump_nil : Accords text (bump text) [] (.ok (none, [])) :=
  accords_peek.step (accords_pure _)

end Accords

private theorem byteIndex?_blockComment (s : List Char) :
    byteIndex? "*/" s = none ∧ afterBlockComment s = none ∨
      ∃ body t, byteIndex? "*/" s = some (byteSize body) ∧ afterBlockComment s = some t ∧
        s = body ++ '*' :: '/' :: t.1 := by
  fun_induction afterBlockComment s with
  | case1 r => exact .inr ⟨[], _, rfl, rfl, rfl⟩
  | case2 c r apart ih =>
    have begins : startsWith "*/" (c :: r) = false := by
      by_contra begins
      obtain ⟨rest, shape⟩ := startsWith_iff.1 (by simpa using begins)
      cases shape
      exact apart rest rfl rfl
    rw [byteIndex?, begins]
    rcases ih with ⟨nowhere, none⟩ | ⟨body, t, found, some, shape⟩
    · left
      rw [nowhere, none]
      exact ⟨rfl, rfl⟩
    · right
      rw [found, some]
      exact ⟨c :: body, _, rfl, rfl, congrArg (c :: ·) shape⟩
  | case3 => exact .inl ⟨rfl, rfl⟩

private theorem byteIndexOf?_getD (c : Char) (cs : List Char) :
    (byteIndexOf? c cs).getD (byteSize cs) = byteSize (cs.takeWhile (· != c)) := by
  unfold byteIndexOf?
  split
  · rfl
  · rename_i absent
    have whole : cs.takeWhile (· != c) = cs := by
      rw [List.takeWhile_eq_self_iff]
      intro d member
      rw [bne_iff_ne]
      rintro rfl
      exact absent member
    rw [whole]
    rfl

/-- What a comment reader gives for a text, with the lengths that are computed for it. -/
inductive CommentSpan (s : List Char) : Except Failure (Option (ProperRest s)) → Prop where
  | line (part : List Char) {t : ProperRest s} : startsWith "//" s = true → s = part ++ t.1 →
      (byteIndexOf? '\n' s).getD (byteSize s) = byteSize part → CommentSpan s (.ok (some t))
  | block (part : List Char) {body : List Char} {stop : Nat} {t : ProperRest s} :
      startsWith "//" s = false → startsWith "/*" s = true → restAt? s 2 = some body → byteIndex? "*/" body = some stop →
      s = part ++ t.1 → stop + 4 = byteSize part → CommentSpan s (.ok (some t))
  | unclosed {body : List Char} : startsWith "//" s = false → startsWith "/*" s = true →
      restAt? s 2 = some body → byteIndex? "*/" body = none →
      CommentSpan s (.error ⟨.unterminatedComment, s⟩)
  | absent : startsWith "//" s = false → startsWith "/*" s = false → CommentSpan s (.ok none)

theorem commentSpan (s : List Char) : CommentSpan s (comment s) := by
  unfold comment
  split
  · rename_i r
    refine .line ('/' :: '/' :: r.takeWhile (· != '\n')) rfl ?_ ?_
    · exact congrArg (fun r => '/' :: '/' :: r) List.takeWhile_append_dropWhile.symm
    · rw [byteIndexOf?_getD]
      rfl
  · rename_i r
    have skipped : restAt? ('/' :: '*' :: r) 2 = some r :=
      restAt?_eq_some_iff.2 ⟨['/', '*'], rfl, rfl⟩
    rcases byteIndex?_blockComment r with ⟨nowhere, none⟩ | ⟨body, t, found, some, shape⟩
    · rw [none]
      exact .unclosed rfl rfl skipped nowhere
    · rw [some]
      refine .block ('/' :: '*' :: (body ++ ['*', '/'])) rfl rfl skipped found ?_ ?_
      · refine (congrArg (fun r => '/' :: '*' :: r) shape).trans ?_
        exact congrArg (fun r => '/' :: '*' :: r) (List.append_assoc body ['*', '/'] t.1).symm
      · have marks : byteSize ['*', '/'] = 2 ∧ '/'.utf8Size = 1 ∧ '*'.utf8Size = 1 := by decide
        rw [byteSize, byteSize, byteSize_append]
        omega
  · rename_i line block
    refine .absent ?_ ?_
    · by_contra begins
      obtain ⟨rest, shape⟩ := startsWith_iff.1 (by simpa using begins)
      exact line rest shape.symm
    · by_contra begins
      obtain ⟨rest, shape⟩ := startsWith_iff.1 (by simpa using begins)
      exact block rest shape.symm

theorem comment_eq_none_iff (s : List Char) :
    comment s = .ok none ↔ ¬ (startsWith "//" s = true ∨ startsWith "/*" s = true) := by
  have span := commentSpan s
  generalize comment s = found at span ⊢
  cases span with
  | line _ line => simp [line]
  | block _ _ block => simp [block]
  | unclosed _ block => simp [block]
  | absent line block => simp [line, block]

theorem accords_passTrivia (text s : List Char) {rounds : Nat} (enough : s.length < rounds) :
    Accords text (passTrivia text rounds) s ((trivia s).map fun t => ((), t.1)) := by
  obtain ⟨rounds, rfl⟩ := Nat.exists_eq_add_one.2 (Nat.zero_lt_of_lt enough)
  have shape : s = s.takeWhile isBlank ++ trimStart s := List.takeWhile_append_dropWhile.symm
  have size : byteSize s - byteSize (trimStart s) = byteSize (s.takeWhile isBlank) := by
    nth_rewrite 1 [shape]
    rw [byteSize_append, Nat.add_sub_cancel]
  rw [passTrivia, trivia]
  refine accords_rest.step ((accords_advance _ shape size).step ?_)
  change Accords text _ (trimStart s) (Except.map _ (comment (trimStart s) >>= _))
  have fewer (t : ProperRest (trimStart s)) : t.1.length < rounds :=
    Nat.lt_of_lt_of_le t.length_lt
      (Nat.le_trans (List.dropWhile_suffix isBlank).length_le (Nat.le_of_lt_succ enough))
  have span := commentSpan (trimStart s)
  generalize comment (trimStart s) = found at span ⊢
  cases span with
  | @line part t begins shape size =>
    rw [if_pos begins]
    refine (accords_advance part shape size).step ?_
    exact (accords_passTrivia text t.1 (fewer t)).last fun _ => rfl
  | @block part body stop t other begins skipped found shape size =>
    rw [if_neg (by simp [other]), if_pos begins]
    refine (accords_lift skipped).step ?_
    rw [found]
    refine (accords_advance part shape size).step ?_
    exact (accords_passTrivia text t.1 (fewer t)).last fun _ => rfl
  | unclosed other begins skipped nowhere =>
    rw [if_neg (by simp [other]), if_pos begins]
    refine (accords_lift skipped).step ?_
    rw [nowhere]
    exact accords_refuse _
  | absent line block =>
    rw [if_neg (by simp [line]), if_neg (by simp [block])]
    exact accords_pure _
termination_by s.length
decreasing_by
  all_goals exact Nat.lt_of_lt_of_le t.length_lt (List.dropWhile_suffix isBlank).length_le

/-- What the trivia reader leaves begins with no trivia. -/
theorem trivia_of_trivia {s : List Char} {u : Rest s} (passed : trivia s = .ok u) :
    comment u.1 = .ok none ∧ trivia u.1 = .ok (Rest.all u.1) := by
  rw [trivia] at passed
  have shorter := (Rest.pastWhile isBlank s).length_le
  have settled : Rest.pastWhile isBlank (Rest.pastWhile isBlank s).1 =
      Rest.all (Rest.pastWhile isBlank s).1 :=
    Subtype.ext (List.dropWhile_idempotent isBlank s)
  generalize Rest.pastWhile isBlank s = behind at passed shorter settled
  change comment behind.1 >>= _ = _ at passed
  rcases found : comment behind.1 with failure | _ | t
  · rw [found] at passed
    cases passed
  · rw [found] at passed
    cases passed
    refine ⟨found, ?_⟩
    rw [trivia, settled]
    change comment u.1 >>= _ = _
    rw [found]
    rfl
  · rw [found] at passed
    change trivia t.1 >>= _ = _ at passed
    cases more : trivia t.1 with
    | error failure =>
      rw [more] at passed
      cases passed
    | ok rest =>
      rw [more] at passed
      cases passed
      have settled := trivia_of_trivia more
      exact settled
termination_by s.length
decreasing_by exact Nat.lt_of_lt_of_le t.length_lt shorter

theorem next_bind {α : Type} {s : List Char}
    (later : Option (Char × ProperRest s) → Except Failure α) :
    next s >>= later = trivia s >>= fun t => later t.uncons? := by
  rw [next]
  cases trivia s <;> rfl

theorem accords_passChar (text : List Char) (wanted : Char) (s : List Char) {rounds : Nat}
    (enough : s.length < rounds) :
    Accords text (passChar text rounds wanted) s ((expect wanted s).map fun t => ((), t.1)) := by
  rw [passChar, expect, next_bind]
  refine (accords_passTrivia text s enough).bind fun t _ => accords_peek.step ?_
  obtain ⟨_ | ⟨c, r⟩, inside⟩ := t
  · exact accords_refuse _
  · dsimp only [Rest.uncons?, List.head?_cons]
    by_cases same : c = wanted
    · rw [if_pos same, if_pos same]
      exact (accords_bump c r).step (accords_pure _)
    · rw [if_neg same, if_neg same]
      exact accords_refuse _

/-- A character that no trivia precede is passed over alone. -/
theorem expect_of_settled {c : Char} {r : List Char}
    (settled : trivia (c :: r) = .ok (Rest.all (c :: r))) :
    expect c (c :: r) = .ok (ProperRest.tail c r) := by
  rw [expect, next_bind, settled]
  exact if_pos rfl

theorem accords_passChar_of_settled (text : List Char) {c : Char} {r : List Char}
    (settled : trivia (c :: r) = .ok (Rest.all (c :: r))) {rounds : Nat}
    (enough : (c :: r).length < rounds) :
    Accords text (passChar text rounds c) (c :: r) (.ok ((), r)) := by
  have passed := accords_passChar text c (c :: r) enough
  rwa [expect_of_settled settled] at passed

theorem accords_passSeparator (text : List Char) (close : Char) (atEnd : Problem) (s : List Char)
    {rounds : Nat} (enough : s.length < rounds) :
    Accords text (passSeparator text rounds close atEnd) s
      ((separator close atEnd s).map fun t => ((), t.1)) := by
  rw [passSeparator, separator]
  refine (accords_passTrivia text s enough).bind fun t _ => accords_peek.step ?_
  obtain ⟨_ | ⟨c, r⟩, inside⟩ := t
  · exact accords_refuse _
  · dsimp only [Rest.uncons?, List.head?_cons]
    by_cases comma : c = ','
    · rw [if_pos comma, if_pos comma]
      exact (accords_bump c r).step (accords_pure _)
    rw [if_neg comma, if_neg comma]
    by_cases closes : c = close
    · rw [if_pos closes, if_pos closes]
      exact accords_pure _
    · rw [if_neg closes, if_neg closes]
      exact accords_refuse _

theorem accords_passWhile (text : List Char) (p : Char → Bool) (s : List Char) {rounds : Nat}
    (enough : s.length < rounds) :
    Accords text (passWhile text p rounds) s (.ok ((), s.dropWhile p)) := by
  obtain ⟨rounds, rfl⟩ := Nat.exists_eq_add_one.2 (Nat.zero_lt_of_lt enough)
  rw [passWhile]
  refine accords_peek.step ?_
  cases s with
  | nil => exact accords_pure _
  | cons c r =>
    rw [List.head?_cons, Option.any_some, List.dropWhile_cons]
    split
    · exact (accords_bump c r).step (accords_passWhile text p r (Nat.lt_of_succ_lt_succ enough))
    · exact accords_pure _

end CommandReference.Literal.Reader
