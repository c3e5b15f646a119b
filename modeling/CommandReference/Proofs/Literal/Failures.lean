import CommandReference.Literal.Reader.Value
import Mathlib.Data.List.Infix

/-! Where readers fail. A reader places its failure at some end of the text that it was given: it may
go back, to an opening quote or to the start of a number, but never behind the place where it
began. -/
namespace CommandReference.Literal.Reader
open Text

variable {α β : Type} {s t : List Char}

/-- A failure is placed within this text. -/
def FailsIn (s : List Char) (result : Except Failure α) : Prop :=
  ∀ failure, result = .error failure → failure.rest <:+ s

theorem failsIn_ok (s : List Char) (a : α) : FailsIn s (Except.ok a) := by
  intro failure failed
  cases failed

theorem failsIn_error {failure : Failure} (inside : failure.rest <:+ s) :
    FailsIn s (Except.error failure : Except Failure α) := by
  rintro _ ⟨⟩
  exact inside

theorem FailsIn.mono {result : Except Failure α} (fails : FailsIn t result) (inside : t <:+ s) :
    FailsIn s result :=
  fun failure failed => (fails failure failed).trans inside

theorem FailsIn.bind {result : Except Failure α} {later : α → Except Failure β}
    (first : FailsIn s result) (second : ∀ a, result = .ok a → FailsIn s (later a)) :
    FailsIn s (result >>= later) := by
  cases result with
  | error failure => exact failsIn_error (first failure rfl)
  | ok a => exact second a rfl

private theorem uncons?_eq_some {rest : Rest s} {c : Char} {r : ProperRest s}
    (found : rest.uncons? = some (c, r)) : rest.1 = c :: r.1 := by
  obtain ⟨_ | ⟨d, tail⟩, inside⟩ := rest
  · cases found
  · cases found
    rfl

theorem failsIn_comment (s : List Char) : FailsIn s (comment s) := by
  unfold comment
  split
  · exact failsIn_ok _ _
  · split
    · exact failsIn_ok _ _
    · exact failsIn_error (List.suffix_refl _)
  · exact failsIn_ok _ _

theorem failsIn_trivia (s : List Char) : FailsIn s (trivia s) := by
  rw [trivia]
  have blanks := (Rest.pastWhile isBlank s).2
  refine ((failsIn_comment _).mono blanks).bind fun found _ => ?_
  rcases found with _ | ⟨rest⟩
  · exact failsIn_ok _ _
  · refine ((failsIn_trivia _).mono (rest.2.1.trans blanks)).bind fun _ _ => ?_
    exact failsIn_ok _ _
termination_by s.length
decreasing_by exact Nat.lt_of_lt_of_le rest.length_lt (Rest.length_le _)

theorem failsIn_next (s : List Char) : FailsIn s (next s) :=
  (failsIn_trivia s).bind fun _ _ => failsIn_ok _ _

/-- The character that follows the trivia stands in the text, with what follows it. -/
theorem suffix_of_next {c : Char} {r : ProperRest s} (read : next s = .ok (some (c, r))) :
    c :: r.1 <:+ s := by
  unfold next at read
  cases passed : trivia s with
  | error failure =>
    rw [passed] at read
    cases read
  | ok rest =>
    rw [passed] at read
    have found : rest.uncons? = some (c, r) := Except.ok.inj read
    exact uncons?_eq_some found ▸ rest.2

theorem failsIn_expect (wanted : Char) (s : List Char) : FailsIn s (expect wanted s) := by
  unfold expect
  refine (failsIn_next s).bind fun found read => ?_
  rcases found with _ | ⟨c, r⟩
  · exact failsIn_error List.nil_suffix
  · dsimp only
    split
    · exact failsIn_ok _ _
    · exact failsIn_error (suffix_of_next read)

theorem failsIn_separator (close : Char) (atEnd : Problem) (s : List Char) :
    FailsIn s (separator close atEnd s) := by
  unfold separator
  refine (failsIn_trivia s).bind fun rest _ => ?_
  split
  · exact failsIn_error List.nil_suffix
  · split
    · exact failsIn_ok _ _
    · split
      · exact failsIn_ok _ _
      · exact failsIn_error rest.2

private theorem failsIn_unicodeDigits (s : List Char) : FailsIn s (unicodeDigits s) := by
  unfold unicodeDigits
  split
  · split
    · exact failsIn_error (List.suffix_cons _ _)
    · exact failsIn_ok _ _
  · exact failsIn_ok _ _

private theorem failsIn_unicodeEscape (s : List Char) : FailsIn s (unicodeEscape s) := by
  unfold unicodeEscape
  refine (failsIn_unicodeDigits s).bind fun ⟨digits, rest⟩ _ => ?_
  dsimp only
  split
  · exact failsIn_ok _ _
  · exact failsIn_error rest.2

/-- A string that is not closed fails at its opening quote, and a faulty escape behind it. -/
theorem failsIn_quoted (opening : List Char) (quote : Char) {s : List Char}
    (inside : s <:+ opening) : FailsIn opening (quoted opening quote s) := by
  induction s using quoted.induct quote with
  | case1 =>
    rw [quoted]
    exact failsIn_error (List.suffix_refl _)
  | case2 =>
    rw [quoted]
    exact failsIn_error (List.suffix_refl _)
  | case3 =>
    rw [quoted]
    exact failsIn_error List.nil_suffix
  | case4 r ih =>
    have behind : r <:+ opening := (List.suffix_append ['\\', 'u'] r).trans inside
    rw [quoted]
    refine ((failsIn_unicodeEscape r).mono behind).bind fun ⟨c, t⟩ _ => ?_
    exact (ih t (t.2.trans behind)).bind fun _ _ => failsIn_ok _ _
  | case5 r ih =>
    rw [quoted]
    exact (ih ((List.suffix_append ['\\', '\n'] r).trans inside)).bind fun _ _ => failsIn_ok _ _
  | case6 c r other onLine ih =>
    rw [quoted]
    · exact (ih ((List.suffix_append ['\\', c] r).trans inside)).bind fun _ _ => failsIn_ok _ _
    · exact other
    · exact onLine
  | case7 r =>
    rw [quoted]
    · rw [if_pos rfl]
      exact failsIn_ok _ _
    all_goals assumption
  | case8 c r _ _ _ _ _ apart ih =>
    rw [quoted]
    · rw [if_neg apart]
      exact (ih ((List.suffix_cons c r).trans inside)).bind fun _ _ => failsIn_ok _ _
    all_goals assumption

private theorem failsIn_template_interpolation :
    (∀ opening s, s <:+ opening → FailsIn opening (template opening s)) ∧
      ∀ depth s, FailsIn s (interpolation depth s) := by
  refine template.mutual_induct (fun opening s => s <:+ opening → FailsIn opening (template opening s))
    (fun depth s => FailsIn s (interpolation depth s)) ?ended ?closed ?slash ?escape
    ?interpolation ?plain ?endedCode ?string ?template ?opens ?closes ?closesInner ?code
  case ended =>
    intro opening _
    rw [template]
    exact failsIn_error (List.suffix_refl _)
  case closed =>
    intro opening r _
    rw [template]
    exact failsIn_ok _ _
  case slash =>
    intro opening _
    rw [template]
    exact failsIn_error (List.suffix_refl _)
  case escape =>
    intro opening c r ih inside
    rw [template]
    exact (ih ((List.suffix_append ['\\', c] r).trans inside)).bind fun _ _ => failsIn_ok _ _
  case interpolation =>
    intro opening r code ih inside
    have behind : r <:+ opening := (List.suffix_append ['$', '{'] r).trans inside
    rw [template]
    refine (code.mono behind).bind fun t _ => ?_
    exact (ih t (t.2.1.trans behind)).bind fun _ _ => failsIn_ok _ _
  case plain =>
    intro opening c r _ _ _ _ ih inside
    rw [template]
    · exact (ih ((List.suffix_cons c r).trans inside)).bind fun _ _ => failsIn_ok _ _
    all_goals assumption
  case endedCode =>
    intro depth
    rw [interpolation]
    exact failsIn_error List.nil_suffix
  case string =>
    intro depth c r quote ih
    rw [interpolation.eq_def]
    dsimp only
    rw [if_pos quote]
    refine (failsIn_quoted (c :: r) c (List.suffix_cons c r)).bind fun ⟨_, t⟩ _ => ?_
    exact ((ih t).mono (t.behind c).2.1).bind fun _ _ => failsIn_ok _ _
  case template =>
    intro depth r quote held ih
    rw [interpolation.eq_def]
    dsimp only
    rw [if_neg quote, if_pos rfl]
    refine (held (List.suffix_cons _ r)).bind fun ⟨_, t⟩ _ => ?_
    exact ((ih t).mono (t.behind _).2.1).bind fun _ _ => failsIn_ok _ _
  case opens =>
    intro depth r quote backtick ih
    rw [interpolation.eq_def]
    dsimp only
    rw [if_neg quote, if_neg backtick, if_pos rfl]
    exact (ih.mono (List.suffix_cons _ r)).bind fun _ _ => failsIn_ok _ _
  case closes =>
    intro r quote backtick opens
    rw [interpolation, if_neg quote, if_neg backtick, if_neg opens, if_pos rfl]
    exact failsIn_ok _ _
  case closesInner =>
    intro r outer quote backtick opens ih
    rw [interpolation, if_neg quote, if_neg backtick, if_neg opens, if_pos rfl]
    exact (ih.mono (List.suffix_cons _ r)).bind fun _ _ => failsIn_ok _ _
  case code =>
    intro depth c r quote backtick opens closes ih
    rw [interpolation.eq_def]
    dsimp only
    rw [if_neg quote, if_neg backtick, if_neg opens, if_neg closes]
    exact (ih.mono (List.suffix_cons c r)).bind fun _ _ => failsIn_ok _ _

theorem failsIn_template {opening s : List Char} (inside : s <:+ opening) :
    FailsIn opening (template opening s) :=
  failsIn_template_interpolation.1 opening s inside

private theorem failsIn_number (c : Char) (r : List Char) : FailsIn (c :: r) (number c r) := by
  unfold number
  dsimp only
  split
  · exact failsIn_ok _ _
  · exact failsIn_error (List.suffix_refl _)

private theorem failsIn_segments (s : List Char) : FailsIn s (segments s) := by
  fun_induction segments s with
  | case1 r _ => exact failsIn_error (List.suffix_cons _ r)
  | case2 r _ t ih => exact (ih.mono (t.behind '.').2.1).bind fun _ _ => failsIn_ok _ _
  | case3 s _ => exact failsIn_ok _ _

theorem failsIn_path (s : List Char) : FailsIn s (path s) := by
  unfold path
  split
  · exact failsIn_error (List.suffix_refl _)
  · rename_i t _
    exact ((failsIn_segments t.1).mono t.2.1).bind fun _ _ => failsIn_ok _ _

private theorem failsIn_key (c : Char) (r : List Char) : FailsIn (c :: r) (key c r) := by
  unfold key
  split
  · exact (failsIn_quoted (c :: r) c (List.suffix_cons c r)).bind fun _ _ => failsIn_ok _ _
  · split
    · exact failsIn_ok _ _
    · exact failsIn_error (List.suffix_refl _)

theorem failsIn_callback (depth : Nat) (s : List Char) : FailsIn s (callback depth s) := by
  induction depth, s using callback.induct with
  | case1 =>
    rw [callback, if_pos rfl]
    exact failsIn_ok _ _
  | case2 depth inner =>
    rw [callback, if_neg inner]
    exact failsIn_error List.nil_suffix
  | case3 depth c r quote ih =>
    rw [callback, if_pos quote]
    refine (failsIn_quoted (c :: r) c (List.suffix_cons c r)).bind fun ⟨_, t⟩ _ => ?_
    exact ((ih t).mono (t.behind c).2.1).bind fun _ _ => failsIn_ok _ _
  | case4 depth r quote ih =>
    rw [callback, if_neg quote, if_pos rfl]
    refine (failsIn_template (List.suffix_cons _ r)).bind fun ⟨_, t⟩ _ => ?_
    exact ((ih t).mono (t.behind _).2.1).bind fun _ _ => failsIn_ok _ _
  | case5 depth c r quote backtick ihComment ihOpen ihClose ihPlain =>
    rw [callback, if_neg quote, if_neg backtick]
    refine (failsIn_comment (c :: r)).bind fun found _ => ?_
    have behind : r <:+ c :: r := List.suffix_cons c r
    rcases found with _ | t
    · dsimp only
      split
      · exact (ihOpen.mono behind).bind fun _ _ => failsIn_ok _ _
      · split
        · exact failsIn_ok _ _
        · split
          · exact (ihClose.mono behind).bind fun _ _ => failsIn_ok _ _
          · exact (ihPlain.mono behind).bind fun _ _ => failsIn_ok _ _
    · exact ((ihComment t).mono t.2.1).bind fun _ _ => failsIn_ok _ _

section Step
variable {s : List Char}

private theorem failsIn_value_of (inBraces : ∀ r : ProperRest s, FailsIn r.1 (fields r.1))
    (inBrackets : ∀ r : ProperRest s, FailsIn r.1 (items ']' r.1))
    (inNew : ∀ (c : Char) (r : ProperRest s) (tail : ProperRest (c :: r.1))
      (u : Rest (r.insteadOf c tail).1) (v : ProperRest u.1) (w : ProperRest v.1),
      FailsIn w.1 (items ')' w.1))
    (inCall : ∀ (c : Char) (r : ProperRest s) (tail : ProperRest (c :: r.1))
      (u : Rest (r.insteadOf c tail).1) (w : ProperRest u.1), FailsIn w.1 (items ')' w.1)) :
    FailsIn s (value s) := by
  rw [value]
  refine (failsIn_next s).bind fun found read => ?_
  rcases found with _ | ⟨c, r⟩
  · exact failsIn_error List.nil_suffix
  have here : c :: r.1 <:+ s := suffix_of_next read
  dsimp only
  split
  · exact ((inBraces r).mono r.2.1).bind fun _ _ => failsIn_ok _ _
  split
  · exact ((inBrackets r).mono r.2.1).bind fun _ _ => failsIn_ok _ _
  split
  · exact ((failsIn_quoted (c :: r.1) c (List.suffix_cons c _)).mono here).bind fun _ _ =>
      failsIn_ok _ _
  split
  · exact ((failsIn_template (List.suffix_cons c _)).mono here).bind fun _ _ => failsIn_ok _ _
  split
  · exact ((failsIn_callback 1 r.1).mono r.2.1).bind fun _ _ => failsIn_ok _ _
  split
  · exact ((failsIn_number c r.1).mono here).bind fun _ _ => failsIn_ok _ _
  split
  · refine ((failsIn_path (c :: r.1)).mono here).bind fun named _ => ?_
    obtain ⟨name, tail⟩ := named
    have word : (r.insteadOf c tail).1 <:+ s := (r.insteadOf c tail).2.1
    dsimp only
    -- The words with a meaning of their own are told apart as strings, not by their characters.
    generalize String.ofList name = name
    split
    · exact failsIn_ok _ _
    · exact failsIn_ok _ _
    · exact failsIn_ok _ _
    · exact failsIn_ok _ _
    · exact ((failsIn_callback 0 _).mono word).bind fun _ _ => failsIn_ok _ _
    · exact ((failsIn_callback 0 _).mono word).bind fun _ _ => failsIn_ok _ _
    · refine ((failsIn_trivia _).mono word).bind fun u _ => ?_
      refine ((failsIn_path u.1).mono (u.2.trans word)).bind fun called _ => ?_
      obtain ⟨callee, v⟩ := called
      have behind : v.1 <:+ s := v.2.1.trans (u.2.trans word)
      refine ((failsIn_expect '(' v.1).mono behind).bind fun w _ => ?_
      exact ((inNew c r tail u v w).mono (w.2.1.trans behind)).bind fun _ _ => failsIn_ok _ _
    · refine ((failsIn_trivia _).mono word).bind fun u _ => ?_
      split
      · exact ((failsIn_callback 0 _).mono word).bind fun _ _ => failsIn_ok _ _
      · refine ((failsIn_expect '(' u.1).mono (u.2.trans word)).bind fun w _ => ?_
        exact ((inCall c r tail u w).mono (w.2.1.trans (u.2.trans word))).bind fun _ _ =>
          failsIn_ok _ _
      · exact failsIn_ok _ _
  · exact failsIn_error here

private theorem failsIn_items_of {close : Char} (one : FailsIn s (value s))
    (later : ∀ (v : ProperRest s) (w : Rest v.1), FailsIn w.1 (items close w.1)) :
    FailsIn s (items close s) := by
  have more : FailsIn s (do
      let found ← value s
      let w ← separator close (.expected close none) found.2.1
      let later ← items close w.1
      return (found.1 :: later.1, found.2.andProper (w.andProper later.2))) := by
    refine one.bind fun found _ => ?_
    obtain ⟨item, v⟩ := found
    refine ((failsIn_separator close _ v.1).mono v.2.1).bind fun w _ => ?_
    exact ((later v w).mono (w.2.trans v.2.1)).bind fun _ _ => failsIn_ok _ _
  rw [items]
  refine (failsIn_next s).bind fun found _ => ?_
  rcases found with _ | ⟨c, r⟩
  · exact more
  · dsimp only
    split
    · exact failsIn_ok _ _
    · exact more

private theorem failsIn_fields_of
    (one : ∀ (r : ProperRest s) (t : Rest r.1) (u : ProperRest t.1), FailsIn u.1 (value u.1))
    (later : ∀ (r : ProperRest s) (t : Rest r.1) (u : ProperRest t.1) (v : ProperRest u.1)
      (w : Rest v.1), FailsIn w.1 (fields w.1)) : FailsIn s (fields s) := by
  rw [fields]
  refine (failsIn_next s).bind fun found read => ?_
  rcases found with _ | ⟨c, r⟩
  · exact failsIn_error List.nil_suffix
  dsimp only
  split
  · exact failsIn_ok _ _
  refine ((failsIn_key c r.1).mono (suffix_of_next read)).bind fun held _ => ?_
  obtain ⟨name, t⟩ := held
  have named : t.1 <:+ s := t.2.trans r.2.1
  refine ((failsIn_expect ':' t.1).mono named).bind fun u _ => ?_
  have behind : u.1 <:+ s := u.2.1.trans named
  refine ((one r t u).mono behind).bind fun held _ => ?_
  obtain ⟨content, v⟩ := held
  have read : v.1 <:+ s := v.2.1.trans behind
  refine ((failsIn_separator '}' _ v.1).mono read).bind fun w _ => ?_
  exact ((later r t u v w).mono (w.2.trans read)).bind fun _ _ => failsIn_ok _ _

end Step

theorem failsIn_value_items_fields :
    (∀ s, FailsIn s (value s)) ∧ (∀ close s, FailsIn s (items close s)) ∧
      ∀ s, FailsIn s (fields s) :=
  value.mutual_induct (fun s => FailsIn s (value s)) (fun close s => FailsIn s (items close s))
    (fun s => FailsIn s (fields s)) (fun _ => failsIn_value_of) (fun _ _ => failsIn_items_of)
    (fun _ => failsIn_fields_of)

theorem failsIn_complete (s : List Char) : FailsIn s (complete s) := by
  unfold complete
  refine (failsIn_value_items_fields.1 s).bind fun ⟨literal, t⟩ _ => ?_
  refine ((failsIn_trivia t.1).mono t.2.1).bind fun rest _ => ?_
  obtain ⟨_ | ⟨c, r⟩, inside⟩ := rest
  · exact failsIn_ok _ _
  · exact failsIn_error (inside.trans t.2.1)

end CommandReference.Literal.Reader
