import CommandReference.Proofs.Literal.Accord.Tokens
import CommandReference.Proofs.Literal.Code
import CommandReference.Proofs.Literal.Rounds

/-! Walks through functions and whole literals. A function is walked through again from its start,
where its reader goes on behind the word that announces it; both pass over the same text. -/
namespace CommandReference.Literal.Reader
open Text Grammar Walk

section Functions
variable {depth : Nat}

/-- What the reader of functions leaves. -/
def afterCode (depth : Nat) (s : List Char) : Except Failure (List Char) :=
  (callback depth s).map Subtype.val

theorem afterCode_of_round {deeper : Nat} {s t : List Char}
    (turn : callbackRound (depth, s) = .ok (.goesOn (deeper, t) id)) :
    afterCode depth s = afterCode deeper t := by
  refine (unroll_callback (depth, s)).trans ?_
  rw [turn]
  exact congrFun Except.map_id _

theorem comment_of_ne_slash {c : Char} (other : c ≠ '/') (r : List Char) :
    comment (c :: r) = .ok none := by
  rw [comment]
  · rfl
  · exact fun _ shape => other (List.cons.inj shape).1
  · exact fun _ shape => other (List.cons.inj shape).1

theorem callbackRound_of_other {c : Char} (other : c ∉ ['\'', '"', '`']) (slash : c ≠ '/')
    (r : List Char) : callbackRound (depth, c :: r) =
      if opensBracket c then .ok (.goesOn (depth + 1, r) id)
      else if depth = 0 ∧ (closesBracket c ∨ c = ',') then .ok (.ends (c :: r))
      else if closesBracket c then .ok (.goesOn (depth - 1, r) id)
      else .ok (.goesOn (depth, r) id) := by
  simp only [List.mem_cons, List.not_mem_nil, or_false, not_or] at other
  rw [callbackRound, if_neg (by simp [other]), if_neg other.2.2, comment_of_ne_slash slash]
  rfl

private theorem afterCode_plain {c : Char} (plain : IsPlain c ∧ c ≠ '/') (r : List Char) :
    afterCode depth (c :: r) = afterCode depth r := by
  obtain ⟨other, opens, closes, comma⟩ := plain.1.signs
  refine afterCode_of_round ?_
  rw [callbackRound_of_other other plain.2, if_neg opens,
    if_neg fun stop => stop.2.elim closes comma, if_neg closes]

private theorem afterCode_parenthesis (r : List Char) :
    afterCode depth ('(' :: r) = afterCode (depth + 1) r := by
  refine afterCode_of_round ?_
  rw [callbackRound_of_other (by decide) (by decide), if_pos (by decide)]

theorem afterCode_append {word : List Char} (plain : ∀ c ∈ word, IsPlain c ∧ c ≠ '/')
    (rest : List Char) :
    afterCode depth (word ++ rest) = afterCode depth rest := by
  induction word with
  | nil => rfl
  | cons c word ih =>
    rw [List.forall_mem_cons] at plain
    rw [List.cons_append, afterCode_plain plain.1, ih plain.2]

/-- What the path reader takes is passed over as any text of a function. -/
theorem afterCode_path {s : List Char} {found : List Char × ProperRest s}
    (read : path s = .ok found) :
    afterCode depth s = afterCode depth found.2.1 := by
  have took : taken (path s) = some (found.1, found.2.1) := by
    rw [taken, seen, read]
    rfl
  obtain ⟨shape, named⟩ := exists_of_path took
  nth_rewrite 1 [shape]
  exact afterCode_append named.1.isPlain _

private theorem afterCode_comment (depth : Nat) (s : List Char) :
    afterCode depth s =
      comment s >>= fun found => afterCode depth (found.elim s Subtype.val) := by
  by_cases absent : comment s = .ok none
  · rw [absent]
    rfl
  obtain ⟨r, rfl⟩ : ∃ r, s = '/' :: r := by
    cases s with
    | nil => exact absurd rfl absent
    | cons c r =>
      by_cases slash : c = '/'
      · exact ⟨r, slash ▸ rfl⟩
      · exact absurd (comment_of_ne_slash slash r) absent
  have unrolled : afterCode depth ('/' :: r) = _ := unroll_callback (depth, '/' :: r)
  rw [unrolled, callbackRound, if_neg (by decide), if_neg (by decide)]
  generalize comment ('/' :: r) = found at absent ⊢
  rcases found with failure | _ | t
  · rfl
  · exact absurd rfl absent
  · exact congrFun Except.map_id _

/-- Trivia are passed over as any text of a function. -/
theorem afterCode_trivia (depth : Nat) (s : List Char) :
    afterCode depth s = trivia s >>= fun t => afterCode depth t.1 := by
  have blanks : afterCode depth s = afterCode depth (Rest.pastWhile isBlank s).1 := by
    nth_rewrite 1 [← @List.takeWhile_append_dropWhile _ isBlank s]
    exact afterCode_append (fun c member => isPlain_of_isBlank (List.mem_takeWhile_imp member)) _
  rw [trivia, blanks, afterCode_comment]
  have shorter := (Rest.pastWhile isBlank s).length_le
  generalize Rest.pastWhile isBlank s = behind at shorter ⊢
  generalize comment behind.1 = found
  rcases found with failure | _ | t
  · rfl
  · rfl
  · refine (afterCode_trivia depth t.1).trans ?_
    change _ = (trivia t.1 >>= _) >>= _
    cases trivia t.1 with
    | error failure => rfl
    | ok rest => rfl
termination_by s.length
decreasing_by exact Nat.lt_of_lt_of_le t.length_lt shorter

theorem afterCode_map (depth : Nat) (s : List Char) :
    (afterCode depth s).map (fun rest => (Literal.callback, rest)) =
      (callback depth s).map fun rest => (Literal.callback, rest.1) := by
  rw [afterCode]
  cases callback depth s with
  | error failure => rfl
  | ok rest => rfl

theorem accords_passFunctionFrom (text : List Char) (depth : Nat) (s : List Char) {rounds : Nat}
    (enough : s.length + 1 < rounds) :
    Accords text (passFunctionFrom text rounds depth) s
      ((callback depth s).map fun rest => (Literal.callback, rest.1)) := by
  induction rounds generalizing depth s with
  | zero => exact absurd enough (Nat.not_lt_zero _)
  | succ rounds ih =>
    rw [passFunctionFrom]
    refine accords_peek.step ?_
    cases s with
    | nil =>
      rw [callback]
      dsimp only [List.head?_nil]
      split
      · exact accords_pure _
      · exact accords_refuse _
    | cons c r =>
      have here : r.length + 1 < rounds := Nat.lt_of_succ_lt_succ enough
      have behind := Nat.lt_of_succ_lt here
      have shorter {t : List Char} (less : t.length < r.length) : t.length + 1 < rounds :=
        Nat.lt_of_le_of_lt less behind
      dsimp only [List.head?_cons]
      by_cases quote : c = '\'' ∨ c = '"'
      · rw [callback, if_pos quote, if_pos quote]
        refine (accords_readString text c c r behind).bind fun found _ => ?_
        exact (ih depth found.2.1 (shorter found.2.length_lt)).last fun _ => rfl
      by_cases backtick : c = '`'
      · subst backtick
        rw [callback, if_neg quote, if_pos rfl, if_neg quote, if_pos rfl]
        refine (accords_readTemplate text r behind).bind fun found _ => ?_
        exact (ih depth found.2.1 (shorter found.2.length_lt)).last fun _ => rfl
      rw [if_neg quote, if_neg backtick]
      refine accords_rest.step ?_
      by_cases absent : comment (c :: r) = .ok none
      · rw [if_neg ((comment_eq_none_iff _).1 absent), callback, if_neg quote, if_neg backtick,
          absent]
        change Accords text _ _ (Except.map _ (if opensBracket c = true then _ else _))
        by_cases opens : opensBracket c = true
        · rw [if_pos opens, if_pos opens]
          exact (accords_bump c r).step ((ih _ r here).last fun _ => rfl)
        rw [if_neg opens, if_neg opens]
        by_cases closes : closesBracket c = true
        · rw [if_pos closes]
          by_cases outside : depth = 0
          · rw [if_pos outside, if_pos ⟨outside, .inl closes⟩]
            exact accords_pure _
          · rw [if_neg outside, if_neg fun stop => outside stop.1, if_pos closes]
            exact (accords_bump c r).step ((ih _ r here).last fun _ => rfl)
        rw [if_neg closes]
        by_cases comma : c = ',' ∧ depth = 0
        · rw [if_pos comma, if_pos ⟨comma.2, .inr comma.1⟩]
          exact accords_pure _
        · rw [if_neg comma, if_neg fun stop => stop.2.elim closes fun same => comma ⟨same, stop.1⟩,
            if_neg closes]
          exact (accords_bump c r).step ((ih _ r here).last fun _ => rfl)
      · have begins := by_contra fun other => absent ((comment_eq_none_iff _).2 other)
        rw [if_pos begins, ← afterCode_map, afterCode_trivia]
        refine (accords_passTrivia text (c :: r) here).bind fun t passed => ?_
        -- A comment was passed over, so less is left.
        have less : t.1.length < (c :: r).length := by
          by_contra long
          have whole : t.1 = c :: r := t.2.eq_of_length_le (Nat.le_of_not_lt long)
          exact absent (whole ▸ (trivia_of_trivia passed).1)
        rw [afterCode_map]
        exact ih depth t.1 (Nat.lt_of_le_of_lt less here)

/-- A function is read from its start, at a place that a walk has noted. -/
theorem accords_passFunction {text start s : List Char} (inside : start <:+ text) {rounds : Nat}
    (enough : start.length + 1 < rounds) :
    Accords text (passFunction text rounds (offset text start)) s
      ((callback 0 start).map fun rest => (Literal.callback, rest.1)) :=
  (accords_set inside).step (accords_passFunctionFrom text 0 start enough)

private theorem accords_passFunction_parenthesis (text r : List Char) {rounds : Nat}
    (enough : ('(' :: r).length + 1 < rounds) :
    Accords text (get >>= passFunction text rounds) ('(' :: r)
      ((callback 1 r).map fun rest => (Literal.callback, rest.1)) := by
  intro inside
  have function := @accords_passFunction text _ ('(' :: r) inside rounds enough
  rw [← afterCode_map, afterCode_parenthesis, afterCode_map] at function
  exact accords_get.step function inside

private theorem accords_passFunction_path {text start s : List Char} (inside : start <:+ text)
    {found : List Char × ProperRest start} (read : path start = .ok found) {rounds : Nat}
    (enough : start.length + 1 < rounds) :
    Accords text (passFunction text rounds (offset text start)) s
      ((callback 0 found.2.1).map fun rest => (Literal.callback, rest.1)) := by
  have function := @accords_passFunction text start s inside rounds enough
  rwa [← afterCode_map, afterCode_path read, afterCode_map] at function

end Functions

section Values
variable (text : List Char) {s : List Char}

/-- From items to the item and on to its name nothing need be passed over, but behind the name or an
opening bracket less is left. So the rounds are twice as many as there are characters, and a few. -/
def AccordsValue (s : List Char) : Prop :=
  ∀ rounds, 2 * s.length + 2 < rounds →
    Accords text (readValue text rounds) s ((value s).map fun found => (found.1, found.2.1))

/-- Walks keep the items and fields that they have read, and readers put them in front. -/
def AccordsItems (close : Char) (s : List Char) : Prop :=
  ∀ rounds, 2 * s.length + 3 < rounds → ∀ before,
    Accords text (readItems text rounds close before) s
      ((items close s).map fun found => (before ++ found.1, found.2.1))

def AccordsFields (s : List Char) : Prop :=
  ∀ rounds, 2 * s.length + 1 < rounds → ∀ before,
    Accords text (readFields text rounds before) s
      ((fields s).map fun found => (Literal.object (before ++ found.1), found.2.1))

variable {text}

/-- What the reader of literals does where a name begins. -/
def word (c : Char) (r : ProperRest s) : Except Failure (Literal × ProperRest s) := do
  let (name, tail) ← path (c :: r.1)
  let t := r.insteadOf c tail
  match String.ofList name with
  | "true" => return (.bool true, t)
  | "false" => return (.bool false, t)
  | "null" | "undefined" => return (.null, t)
  | "async" | "function" =>
    let rest ← callback 0 t.1
    return (.callback, t.andThen rest)
  | "new" =>
    let u ← trivia t.1
    let (callee, v) ← path u.1
    let w ← expect '(' v.1
    let (entries, rest) ← items ')' w.1
    return (.call (String.ofList callee) entries,
      t.andProper (u.andProper (v.andProper (w.andProper rest))))
  | name =>
    let u ← trivia t.1
    match u.1 with
    | '=' :: '>' :: _ =>
      let rest ← callback 0 t.1
      return (.callback, t.andThen rest)
    | '(' :: _ =>
      let w ← expect '(' u.1
      let (entries, rest) ← items ')' w.1
      return (.call name entries, t.andProper (u.andProper (w.andProper rest)))
    | _ => return (.path name, t)

private theorem accords_readWord_of {c : Char} {r : ProperRest s}
    (inNew : ∀ (tail : ProperRest (c :: r.1)) (u : Rest (r.insteadOf c tail).1)
      (v : ProperRest u.1) (w : ProperRest v.1), AccordsItems text ')' w.1)
    (inCall : ∀ (tail : ProperRest (c :: r.1)) (u : Rest (r.insteadOf c tail).1)
      (w : ProperRest u.1), AccordsItems text ')' w.1) {rounds : Nat}
    (enough : 2 * (c :: r.1).length + 1 < rounds) :
    Accords text (readWord text rounds) (c :: r.1)
      ((word c r).map fun found => (found.1, found.2.1)) := by
  obtain ⟨rounds, rfl⟩ := Nat.exists_eq_add_one.2 (Nat.zero_lt_of_lt enough)
  have behind : (c :: r.1).length = r.1.length + 1 := rfl
  rw [readWord, word]
  intro inside
  refine accords_get.step ?_ inside
  refine (accords_readPath text (c :: r.1) (by omega)).bind fun named read => ?_
  obtain ⟨name, tail⟩ := named
  dsimp only
  have function (place : List Char) :=
    @accords_passFunction_path text _ place inside _ read rounds (by omega)
  have after : tail.1 <:+ text := tail.2.1.trans inside
  have less : tail.1.length < (c :: r.1).length := tail.length_lt
  generalize String.ofList name = name
  by_cases isTrue : name = "true"
  · subst isTrue
    rw [if_pos rfl]
    exact accords_pure _
  rw [if_neg isTrue]
  by_cases isFalse : name = "false"
  · subst isFalse
    rw [if_pos rfl]
    exact accords_pure _
  rw [if_neg isFalse]
  by_cases isNull : name = "null" ∨ name = "undefined"
  · rw [if_pos isNull]
    rcases isNull with rfl | rfl
    · exact accords_pure _
    · exact accords_pure _
  rw [if_neg isNull]
  by_cases announces : name = "async" ∨ name = "function"
  · rw [if_pos announces]
    rcases announces with rfl | rfl
    · exact (function tail.1).last fun _ => rfl
    · exact (function tail.1).last fun _ => rfl
  rw [if_neg announces]
  by_cases isNew : name = "new"
  · subst isNew
    rw [if_pos rfl]
    refine (accords_passTrivia text tail.1 (by omega)).bind fun u _ => ?_
    have := u.length_le
    refine (accords_readPath text u.1 (by omega)).bind fun called _ => ?_
    obtain ⟨callee, v⟩ := called
    have := v.length_lt
    refine (accords_passChar text '(' v.1 (by omega)).bind fun w _ => ?_
    have := w.length_lt
    refine (inNew tail u v w rounds (by omega) []).bind fun _ _ => ?_
    exact accords_pure _
  rw [if_neg isNew]
  rw [not_or] at isNull announces
  split
  · contradiction
  · contradiction
  · exact absurd rfl isNull.1
  · exact absurd rfl isNull.2
  · exact absurd rfl announces.1
  · exact absurd rfl announces.2
  · contradiction
  refine accords_get.step ?_
  refine (accords_passTrivia text tail.1 (by omega)).bind fun u passed => ?_
  have settled := (trivia_of_trivia passed).2
  have left := u.length_le
  refine accords_rest.step ?_
  obtain ⟨u, within⟩ := u
  dsimp only at settled left ⊢
  split
  · rename_i arrow
    obtain ⟨later, rfl⟩ := startsWith_iff.1 arrow
    exact (function _).last fun _ => rfl
  rename_i noArrow
  refine accords_peek.step ?_
  split
  · rename_i opens
    obtain ⟨later, rfl⟩ := List.head?_eq_some_iff.1 opens
    change Accords text _ _ (Except.map _ (expect '(' ('(' :: later) >>= _))
    rw [expect_of_settled settled]
    refine (accords_bump '(' later).step ?_
    rw [List.length_cons] at left
    refine (inCall tail ⟨_, within⟩ (ProperRest.tail '(' later) rounds ?_ []).bind
      fun _ _ => ?_
    · change 2 * later.length + 3 < rounds
      omega
    exact accords_pure _
  rename_i noCall
  split
  · exact absurd rfl noArrow
  · exact absurd rfl noCall
  · exact (accords_set after).step (accords_pure _)

private theorem accords_readValue_of (inBraces : ∀ r : ProperRest s, AccordsFields text r.1)
    (inBrackets : ∀ r : ProperRest s, AccordsItems text ']' r.1)
    (inNew : ∀ (c : Char) (r : ProperRest s) (tail : ProperRest (c :: r.1))
      (u : Rest (r.insteadOf c tail).1) (v : ProperRest u.1) (w : ProperRest v.1),
      AccordsItems text ')' w.1)
    (inCall : ∀ (c : Char) (r : ProperRest s) (tail : ProperRest (c :: r.1))
      (u : Rest (r.insteadOf c tail).1) (w : ProperRest u.1), AccordsItems text ')' w.1) :
    AccordsValue text s := by
  intro rounds enough
  obtain ⟨rounds, rfl⟩ := Nat.exists_eq_add_one.2 (Nat.zero_lt_of_lt enough)
  rw [readValue, value, next_bind]
  refine (accords_passTrivia text s (by omega)).bind fun t passed => accords_peek.step ?_
  have settled := (trivia_of_trivia passed).2
  obtain ⟨_ | ⟨c, r⟩, inside⟩ := t
  · exact accords_refuse _
  obtain ⟨r, rfl⟩ : ∃ rest : ProperRest s, rest.1 = r :=
    ⟨Rest.andProper ⟨c :: r, inside⟩ (ProperRest.tail c r), rfl⟩
  have same : Rest.andProper ⟨c :: r.1, inside⟩ (ProperRest.tail c r.1) = r := rfl
  have here : (c :: r.1).length ≤ s.length := inside.length_le
  have behind : (c :: r.1).length = r.1.length + 1 := rfl
  dsimp only [Rest.uncons?, List.head?_cons] at settled ⊢
  rw [same]
  by_cases brace : c = '{'
  · rw [if_pos brace, if_pos brace]
    subst brace
    refine (accords_passChar_of_settled text settled (by omega)).step ?_
    exact (inBraces r rounds (by omega) []).last fun _ => rfl
  rw [if_neg brace, if_neg brace]
  by_cases bracket : c = '['
  · rw [if_pos bracket, if_pos bracket]
    subst bracket
    refine (accords_passChar_of_settled text settled (by omega)).step ?_
    refine (inBrackets r rounds (by omega) []).bind fun _ _ => ?_
    exact accords_pure _
  rw [if_neg bracket, if_neg bracket]
  by_cases quote : c = '\'' ∨ c = '"'
  · rw [if_pos quote, if_pos quote]
    refine (accords_readString text c c r.1 (by omega)).bind fun _ _ => ?_
    exact accords_pure _
  rw [if_neg quote, if_neg quote]
  by_cases backtick : c = '`'
  · rw [if_pos backtick, if_pos backtick]
    subst backtick
    exact (accords_readTemplate text r.1 (by omega)).last fun _ => rfl
  rw [if_neg backtick, if_neg backtick]
  by_cases parenthesis : c = '('
  · rw [if_pos parenthesis, if_pos parenthesis]
    subst parenthesis
    exact (accords_passFunction_parenthesis text r.1 (by omega)).last fun _ => rfl
  rw [if_neg parenthesis, if_neg parenthesis]
  by_cases begins : c = '-' ∨ c = '+' ∨ isDigit c = true
  · rw [if_pos begins, if_pos begins]
    exact (accords_readNumber text r.1 begins (by omega)).last fun _ => rfl
  rw [if_neg begins, if_neg begins]
  by_cases start : isIdentifierStart c = true
  · rw [if_pos start, if_pos start]
    exact accords_readWord_of (inNew c r) (inCall c r) (by omega)
  · rw [if_neg start, if_neg start]
    exact accords_refuse _

/-- Trivia before a literal may be passed over already. -/
private theorem accords_readValue_of_trivia {t : Rest s} (inside : s <:+ text)
    (passed : trivia s = .ok t) {rounds : Nat} (enough : 2 * s.length + 2 < rounds)
    {result : Except Failure (Literal × List Char)}
    (here : Accords text (readValue text rounds) s result) :
    Accords text (readValue text rounds) t.1 result := by
  intro within
  obtain ⟨rounds, rfl⟩ := Nat.exists_eq_add_one.2 (Nat.zero_lt_of_lt enough)
  have fewer := t.length_le
  obtain ⟨done, stays⟩ := here inside
  have moves := (@accords_passTrivia text s rounds (by omega) inside).1
  have stands := (@accords_passTrivia text t.1 rounds (by omega) within).1
  rw [passed] at moves
  rw [(trivia_of_trivia passed).2] at stands
  rw [readValue, outcome_bind_of_ok moves] at done
  refine ⟨?_, stays⟩
  rw [readValue, outcome_bind_of_ok stands]
  exact done

private theorem accords_readItems_of {close : Char} (one : AccordsValue text s)
    (later : ∀ (v : ProperRest s) (w : Rest v.1), AccordsItems text close w.1) :
    AccordsItems text close s := by
  intro rounds enough before inside
  obtain ⟨rounds, rfl⟩ := Nat.exists_eq_add_one.2 (Nat.zero_lt_of_lt enough)
  have more {t : Rest s} (passed : trivia s = .ok t) : Accords text (do
      let item ← readValue text rounds
      passSeparator text rounds close (.expected close none)
      readItems text rounds close (before ++ [item])) t.1
      (Except.map (fun found => (before ++ found.1, found.2.1)) (do
        let found ← value s
        let w ← separator close (.expected close none) found.2.1
        let later ← items close w.1
        return (found.1 :: later.1, found.2.andProper (w.andProper later.2)))) := by
    have item := accords_readValue_of_trivia inside passed (by omega) (one rounds (by omega))
    refine item.bind fun found _ => ?_
    have := found.2.length_lt
    refine (accords_passSeparator text close _ found.2.1 (by omega)).bind fun w _ => ?_
    have := w.length_le
    refine (later found.2 w rounds (by omega) (before ++ [found.1])).last fun rest => ?_
    exact congrArg (fun items => Except.ok (items, rest.2.1))
      (List.append_cons before found.1 rest.1)
  rw [readItems, items, next_bind]
  refine (accords_passTrivia text s (by omega)).bind (fun t passed => accords_peek.step ?_) inside
  have more := more passed
  obtain ⟨_ | ⟨c, r⟩, within⟩ := t
  · exact more
  · change Accords text (if some c = some close then _ else _) (c :: r)
      (Except.map _ (if c = close then _ else _))
    split
    · rename_i closes
      rw [if_pos (Option.some.inj closes)]
      refine (accords_bump c r).step ?_
      change Accords text _ r (.ok (before ++ [], r))
      rw [List.append_nil]
      exact accords_pure _
    · rename_i other
      rw [if_neg fun closes => other (congrArg some closes)]
      exact more

private theorem accords_readFields_of
    (one : ∀ (r : ProperRest s) (t : Rest r.1) (u : ProperRest t.1), AccordsValue text u.1)
    (later : ∀ (r : ProperRest s) (t : Rest r.1) (u : ProperRest t.1) (v : ProperRest u.1)
      (w : Rest v.1), AccordsFields text w.1) : AccordsFields text s := by
  intro rounds enough before
  obtain ⟨rounds, rfl⟩ := Nat.exists_eq_add_one.2 (Nat.zero_lt_of_lt enough)
  rw [readFields, fields, next_bind]
  refine (accords_passTrivia text s (by omega)).bind fun t _ => accords_peek.step ?_
  obtain ⟨_ | ⟨c, r⟩, inside⟩ := t
  · exact accords_refuse _
  obtain ⟨r, rfl⟩ : ∃ rest : ProperRest s, rest.1 = r :=
    ⟨Rest.andProper ⟨c :: r, inside⟩ (ProperRest.tail c r), rfl⟩
  have same : Rest.andProper ⟨c :: r.1, inside⟩ (ProperRest.tail c r.1) = r := rfl
  have here : (c :: r.1).length ≤ s.length := inside.length_le
  have behind : (c :: r.1).length = r.1.length + 1 := rfl
  dsimp only [Rest.uncons?, List.head?_cons]
  rw [same]
  by_cases closes : c = '}'
  · rw [if_pos closes, if_pos closes]
    refine (accords_bump c r.1).step ?_
    change Accords text _ r.1 (.ok (Literal.object (before ++ []), r.1))
    rw [List.append_nil]
    exact accords_pure _
  rw [if_neg closes, if_neg closes]
  refine (accords_readKey text c r.1 (by omega)).bind fun held _ => ?_
  obtain ⟨name, t⟩ := held
  have := t.length_le
  refine (accords_passChar text ':' t.1 (by omega)).bind fun u _ => ?_
  have := u.length_lt
  refine (one r t u rounds (by omega)).bind fun held _ => ?_
  obtain ⟨content, v⟩ := held
  have := v.length_lt
  refine (accords_passSeparator text '}' _ v.1 (by omega)).bind fun w _ => ?_
  have := w.length_le
  refine (later r t u v w rounds (by omega) (before ++ [(String.ofList name, content)])).last
    fun rest => ?_
  exact congrArg (fun entries => Except.ok (Literal.object entries, rest.2.1))
    (List.append_cons before _ rest.1)

end Values

theorem accords_value_items_fields (text : List Char) :
    (∀ s, AccordsValue text s) ∧ (∀ close s, AccordsItems text close s) ∧
      ∀ s, AccordsFields text s :=
  value.mutual_induct (AccordsValue text) (AccordsItems text) (AccordsFields text)
    (fun _ => accords_readValue_of) (fun _ _ => accords_readItems_of) (fun _ => accords_readFields_of)

theorem accords_readLiteral (text s : List Char) {rounds : Nat}
    (enough : 2 * s.length + 2 < rounds) :
    Accords text (readLiteral text rounds) s ((complete s).map fun literal => (literal, [])) := by
  rw [readLiteral, complete]
  refine ((accords_value_items_fields text).1 s rounds enough).bind fun found _ => ?_
  have := found.2.length_lt
  refine (accords_passTrivia text found.2.1 (by omega)).bind fun t _ => ?_
  intro within
  refine accords_get.step ?_ within
  obtain ⟨_ | ⟨c, r⟩, inside⟩ := t
  · rw [if_neg fun some => (offset_lt_iff within).1 some rfl]
    exact accords_pure _
  · rw [if_pos ((offset_lt_iff within).2 (List.cons_ne_nil c r))]
    exact accords_refuse _

end CommandReference.Literal.Reader
