import CommandReference.Proofs.Literal.Quoted

/-! The reader of template strings against the grammar. A template string may hold an
interpolation and an interpolation a template string, so each fact about the one reader
goes with a fact about the other. -/
namespace CommandReference.Literal.Reader
open Text Grammar

section Equations
variable (opening : List Char)

private theorem taken_template_nil : taken (template opening []) = none := by
  rw [template]
  rfl

theorem taken_template_close (r : List Char) :
    taken (template opening ('`' :: r)) = some (false, r) := by
  rw [template]
  rfl

theorem taken_template_escape (c : Char) (r : List Char) :
    taken (template opening ('\\' :: c :: r)) = taken (template opening r) := by
  rw [template]
  exact (seen_map fun later => rfl).trans Option.map_id'

theorem taken_template_interpolation (r : List Char) :
    taken (template opening ('$' :: '{' :: r)) = (left (interpolation 0 r)).bind fun t =>
      (taken (template opening t)).map fun later => (true, later.2) := by
  rw [template]
  refine seen_bind fun t => ?_
  exact seen_map fun later => rfl

theorem taken_template_plain {c : Char} {r : List Char} (plain : c ∉ ['`', '\\'])
    (apart : c = '$' → r.head? ≠ some '{') :
    taken (template opening (c :: r)) = taken (template opening r) := by
  simp only [List.mem_cons, List.not_mem_nil, or_false, not_or] at plain
  rw [template]
  · exact (seen_map fun later => rfl).trans Option.map_id'
  · exact plain.1
  · exact fun same _ => plain.2 same
  · exact fun _ _ same _ => plain.2 same
  · rintro later dollar rfl
    exact apart dollar rfl

end Equations

private theorem left_interpolation_nil (depth : Nat) : left (interpolation depth []) = none := by
  rw [interpolation]
  rfl

theorem left_interpolation_cons (depth : Nat) (c : Char) (r : List Char) :
    left (interpolation depth (c :: r)) =
      if c = '\'' ∨ c = '"' then
        (taken (quoted (c :: r) c r)).bind fun t => left (interpolation depth t.2)
      else if c = '`' then
        (taken (template (c :: r) r)).bind fun t => left (interpolation depth t.2)
      else if c = '{' then left (interpolation (depth + 1) r)
      else if c = '}' then
        match depth with
        | 0 => some r
        | outer + 1 => left (interpolation outer r)
      else left (interpolation depth r) := by
  rw [interpolation.eq_def, left]
  dsimp only
  rw [seen_ite, seen_ite, seen_ite, seen_ite]
  congr 1
  · refine seen_bind fun t => ?_
    exact (seen_map fun later => rfl).trans Option.map_id'
  congr 1
  · refine seen_bind fun t => ?_
    exact (seen_map fun later => rfl).trans Option.map_id'
  congr 1
  · exact (seen_map fun later => rfl).trans Option.map_id'
  congr 1
  · cases depth with
    | zero => rfl
    | succ outer => exact (seen_map fun later => rfl).trans Option.map_id'
  · exact (seen_map fun later => rfl).trans Option.map_id'

theorem left_interpolation_open (depth : Nat) (r : List Char) :
    left (interpolation depth ('{' :: r)) = left (interpolation (depth + 1) r) :=
  left_interpolation_cons depth '{' r

theorem left_interpolation_close (r : List Char) :
    left (interpolation 0 ('}' :: r)) = some r :=
  left_interpolation_cons 0 '}' r

theorem left_interpolation_closeInner (depth : Nat) (r : List Char) :
    left (interpolation (depth + 1) ('}' :: r)) = left (interpolation depth r) :=
  left_interpolation_cons (depth + 1) '}' r

theorem left_interpolation_string {quote : Char} (isQuote : IsQuote quote) (depth : Nat)
    (r : List Char) :
    left (interpolation depth (quote :: r)) =
      (taken (quoted (quote :: r) quote r)).bind fun t => left (interpolation depth t.2) :=
  (left_interpolation_cons depth quote r).trans (if_pos isQuote)

theorem left_interpolation_template (depth : Nat) (r : List Char) :
    left (interpolation depth ('`' :: r)) =
      (taken (template ('`' :: r) r)).bind fun t => left (interpolation depth t.2) :=
  left_interpolation_cons depth '`' r

theorem left_interpolation_plain {c : Char} (plain : c ∉ ['\'', '"', '`', '{', '}']) (depth : Nat)
    (r : List Char) : left (interpolation depth (c :: r)) = left (interpolation depth r) := by
  simp only [List.mem_cons, List.not_mem_nil, or_false, not_or] at plain
  obtain ⟨single, double, backtick, brace, close⟩ := plain
  rw [left_interpolation_cons, if_neg (by simp [single, double]), if_neg backtick, if_neg brace,
    if_neg close]

mutual

theorem taken_template_append : ∀ {body : List Char} {interpolated : Bool},
    Template body interpolated → ∀ opening rest : List Char,
      taken (template opening (body ++ '`' :: rest)) = some (interpolated, rest)
  | _, _, .nil, opening, rest => taken_template_close opening rest
  | _, _, .escape inside, opening, rest => by
    exact (taken_template_escape opening _ _).trans (taken_template_append inside opening rest)
  | _, _, @Template.interpolation code body interpolated inner inside, opening, rest => by
    have shape : '$' :: '{' :: code ++ '}' :: body ++ '`' :: rest =
        '$' :: '{' :: (code ++ '}' :: (body ++ '`' :: rest)) := by simp
    rw [shape, taken_template_interpolation, left_interpolation_append inner,
      left_interpolation_close, Option.bind_some, taken_template_append inside]
    rfl
  | _, _, @Template.plain c body interpolated plain apart inside, opening, rest => by
    have apart : c = '$' → (body ++ '`' :: rest).head? ≠ some '{' := by
      intro dollar
      cases body with
      | nil => simp
      | cons d body => exact apart dollar
    exact (taken_template_plain opening plain apart).trans
      (taken_template_append inside opening rest)

theorem left_interpolation_append : ∀ {code : List Char}, Interpolation code →
    ∀ (depth : Nat) (s : List Char),
      left (interpolation depth (code ++ s)) = left (interpolation depth s)
  | _, .nil, _, _ => rfl
  | _, @Interpolation.string quote body text later isQuote held inside, depth, s => by
    have shape : quote :: body ++ quote :: later ++ s =
        quote :: (body ++ quote :: (later ++ s)) := by simp
    rw [shape, left_interpolation_string isQuote, taken_quoted_append _ isQuote held]
    exact left_interpolation_append inside depth s
  | _, @Interpolation.template body later interpolated held inside, depth, s => by
    have shape : '`' :: body ++ '`' :: later ++ s = '`' :: (body ++ '`' :: (later ++ s)) := by
      simp
    rw [shape, left_interpolation_template, taken_template_append held]
    exact left_interpolation_append inside depth s
  | _, @Interpolation.braces inner later inside behind, depth, s => by
    have shape : '{' :: inner ++ '}' :: later ++ s = '{' :: (inner ++ '}' :: (later ++ s)) := by
      simp
    rw [shape, left_interpolation_open, left_interpolation_append inside,
      left_interpolation_closeInner]
    exact left_interpolation_append behind depth s
  | _, .plain plain inside, depth, s =>
    (left_interpolation_plain plain depth _).trans (left_interpolation_append inside depth s)

end

/-- What the interpolation reader passes over inside so many further braces: code up to the
brace that closes each of them, the outermost last. -/
inductive Closes : Nat → List Char → Prop where
  | outer {code : List Char} : Interpolation code → Closes 0 (code ++ ['}'])
  | inner {depth : Nat} {code later : List Char} : Interpolation code → Closes depth later →
      Closes (depth + 1) (code ++ '}' :: later)

theorem Closes.extend {front : List Char}
    (grows : ∀ {code}, Interpolation code → Interpolation (front ++ code)) {depth : Nat}
    {word : List Char} (closes : Closes depth word) : Closes depth (front ++ word) := by
  cases closes with
  | outer code =>
    rw [← List.append_assoc]
    exact .outer (grows code)
  | inner code later =>
    rw [← List.append_assoc]
    exact .inner (grows code) later

theorem Closes.opened {depth : Nat} {word : List Char} (closes : Closes (depth + 1) word) :
    Closes depth ('{' :: word) := by
  cases closes with
  | @inner _ code later inside closes =>
    have shape : '{' :: (code ++ '}' :: later) = ('{' :: code ++ ['}']) ++ later := by simp
    rw [shape]
    refine closes.extend fun behind => ?_
    rw [List.append_assoc]
    exact .braces inside behind

/-- What the two readers pass over, for texts of one length. -/
def Sound (n : Nat) : Prop :=
  (∀ {opening s rest : List Char} {interpolated : Bool}, s.length = n →
    taken (template opening s) = some (interpolated, rest) →
      ∃ body, s = body ++ '`' :: rest ∧ Template body interpolated) ∧
  ∀ {depth : Nat} {s rest : List Char}, s.length = n →
    left (interpolation depth s) = some rest → ∃ word, s = word ++ rest ∧ Closes depth word

private theorem exists_of_template_of {n : Nat} (shorter : ∀ m < n, Sound m)
    {opening s rest : List Char}
    {interpolated : Bool} (length : s.length = n)
    (read : taken (template opening s) = some (interpolated, rest)) :
    ∃ body, s = body ++ '`' :: rest ∧ Template body interpolated := by
  cases s with
  | nil => cases (taken_template_nil opening).symm.trans read
  | cons c r =>
    have tail : r.length < n := length ▸ Nat.lt_succ_self _
    by_cases close : c = '`'
    · subst close
      cases (taken_template_close opening r).symm.trans read
      exact ⟨[], rfl, .nil⟩
    by_cases backslash : c = '\\'
    · subst backslash
      cases r with
      | nil =>
        rw [template] at read
        cases read
      | cons c r =>
        rw [taken_template_escape] at read
        obtain ⟨body, rfl, inside⟩ := (shorter _ (Nat.lt_of_succ_lt tail)).1 rfl read
        exact ⟨'\\' :: c :: body, rfl, .escape inside⟩
    by_cases opens : c = '$' ∧ r.head? = some '{'
    · obtain ⟨rfl, head⟩ := opens
      obtain ⟨r, rfl⟩ := List.head?_eq_some_iff.1 head
      rw [taken_template_interpolation] at read
      obtain ⟨t, passed, read⟩ := Option.bind_eq_some_iff.1 read
      obtain ⟨⟨later, left⟩, goesOn, same⟩ := Option.map_eq_some_iff.1 read
      cases same
      obtain ⟨word, rfl, closes⟩ := (shorter _ (Nat.lt_of_succ_lt tail)).2 rfl passed
      cases closes with
      | @outer code balanced =>
        have short : t.length < n := by
          simp only [List.length_cons, List.length_append] at tail
          omega
        obtain ⟨body, rfl, inside⟩ := (shorter _ short).1 rfl goesOn
        exact ⟨'$' :: '{' :: code ++ '}' :: body, by simp, .interpolation balanced inside⟩
    · have plain : c ∉ ['`', '\\'] := by simp [close, backslash]
      have apart : c = '$' → r.head? ≠ some '{' := fun dollar head => opens ⟨dollar, head⟩
      rw [taken_template_plain opening plain apart] at read
      obtain ⟨body, rfl, inside⟩ := (shorter _ tail).1 rfl read
      refine ⟨c :: body, rfl, .plain plain ?_ inside⟩
      intro dollar head
      apply apart dollar
      rw [List.head?_append, head]
      rfl

private theorem exists_of_interpolation_of {n : Nat} (shorter : ∀ m < n, Sound m) {depth : Nat}
    {s rest : List Char} (length : s.length = n)
    (read : left (interpolation depth s) = some rest) :
    ∃ word, s = word ++ rest ∧ Closes depth word := by
  cases s with
  | nil => cases (left_interpolation_nil depth).symm.trans read
  | cons c r =>
    have tail : r.length < n := length ▸ Nat.lt_succ_self _
    -- a string or a template string at the start
    have past {body later : List Char}
        (grows : ∀ {code}, Interpolation code → Interpolation (c :: body ++ c :: code))
        (same : r = body ++ c :: later) (goesOn : left (interpolation depth later) = some rest) :
        ∃ word, c :: r = word ++ rest ∧ Closes depth word := by
      subst same
      have short : later.length < n := by
        simp only [List.length_cons, List.length_append] at tail
        omega
      obtain ⟨word, rfl, closes⟩ := (shorter _ short).2 rfl goesOn
      refine ⟨(c :: body ++ [c]) ++ word, by simp, closes.extend fun code => ?_⟩
      rw [List.append_assoc]
      exact grows code
    by_cases isQuote : IsQuote c
    · rw [left_interpolation_string isQuote] at read
      obtain ⟨⟨text, later⟩, passed, goesOn⟩ := Option.bind_eq_some_iff.1 read
      obtain ⟨body, same, held⟩ := exists_of_quoted _ isQuote passed
      exact past (.string isQuote held) same goesOn
    by_cases backtick : c = '`'
    · subst backtick
      rw [left_interpolation_template] at read
      obtain ⟨⟨interpolated, later⟩, passed, goesOn⟩ := Option.bind_eq_some_iff.1 read
      obtain ⟨body, same, held⟩ := (shorter _ tail).1 rfl passed
      exact past (.template held) same goesOn
    by_cases opens : c = '{'
    · subst opens
      rw [left_interpolation_open] at read
      obtain ⟨word, rfl, closes⟩ := (shorter _ tail).2 rfl read
      exact ⟨'{' :: word, rfl, closes.opened⟩
    by_cases close : c = '}'
    · subst close
      cases depth with
      | zero =>
        cases (left_interpolation_close r).symm.trans read
        exact ⟨['}'], rfl, .outer .nil⟩
      | succ depth =>
        rw [left_interpolation_closeInner] at read
        obtain ⟨word, rfl, closes⟩ := (shorter _ tail).2 rfl read
        exact ⟨'}' :: word, rfl, .inner .nil closes⟩
    · have plain : c ∉ ['\'', '"', '`', '{', '}'] := by
        rw [IsQuote, not_or] at isQuote
        simp [isQuote, backtick, opens, close]
      rw [left_interpolation_plain plain] at read
      obtain ⟨word, rfl, closes⟩ := (shorter _ tail).2 rfl read
      exact ⟨[c] ++ word, rfl, closes.extend (.plain plain)⟩

theorem sound (n : Nat) : Sound n := by
  induction n using Nat.strong_induction_on with
  | _ n shorter => exact ⟨exists_of_template_of shorter, exists_of_interpolation_of shorter⟩

theorem exists_of_template {opening s rest : List Char} {interpolated : Bool}
    (read : taken (template opening s) = some (interpolated, rest)) :
    ∃ body, s = body ++ '`' :: rest ∧ Template body interpolated :=
  (sound s.length).1 rfl read

end CommandReference.Literal.Reader
