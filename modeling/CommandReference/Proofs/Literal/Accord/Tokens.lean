import CommandReference.Proofs.Literal.Accord.Basic
import CommandReference.Proofs.Literal.Complete

/-! Walks through strings, templates, numbers and names. -/
namespace CommandReference.Literal.Reader
open Text Walk

private theorem accords_readDigits (text s : List Char) :
    Accords text (readDigits text) s ((unicodeDigits s).map fun found => (found.1, found.2.1)) := by
  rw [readDigits]
  refine accords_peek.step ?_
  by_cases brace : s.head? = some '{'
  · obtain ⟨body, rfl⟩ := List.head?_eq_some_iff.1 brace
    rw [if_pos brace, unicodeDigits]
    refine (accords_bump '{' body).step (accords_rest.step ?_)
    rcases notMem_or_exists_append '}' body with absent | ⟨digits, later, rfl, inside⟩
    · have left : (Rest.pastWhile (· != '}') body).1 = [] :=
        List.dropWhile_eq_nil_iff.2 (bne_of_notMem absent)
      generalize Rest.pastWhile (· != '}') body = rest at left ⊢
      obtain ⟨rest, inside⟩ := rest
      cases left
      rw [byteIndexOf?, if_neg absent]
      exact accords_refuse _
    · have kept := bne_of_notMem inside
      have ends : ∀ c ∈ ('}' :: later).head?, (c != '}') = false := by
        rintro c ⟨⟩
        rfl
      have left : (Rest.pastWhile (· != '}') (digits ++ '}' :: later)).1 = '}' :: later :=
        dropWhile_run kept ends
      have first : (digits ++ '}' :: later).takeWhile (· != '}') = digits := takeWhile_run kept ends
      generalize Rest.pastWhile (· != '}') (digits ++ '}' :: later) = rest at left ⊢
      obtain ⟨rest, inside⟩ := rest
      cases left
      rw [byteIndexOf?, if_pos (by simp), first]
      have shape : digits ++ '}' :: later = (digits ++ ['}']) ++ later := by simp
      have size : byteSize digits + 1 = byteSize (digits ++ ['}']) := by
        rw [byteSize_append]
        rfl
      refine (accords_lift (slice?_append digits _)).step ?_
      exact (accords_advance _ shape size).step (accords_pure _)
  · rw [if_neg brace]
    unfold unicodeDigits
    split
    · exact absurd rfl brace
    · have shape : s = s.take 4 ++ s.drop 4 := (List.take_append_drop 4 s).symm
      exact accords_rest.step ((accords_advance _ shape rfl).step (accords_pure _))

private theorem accords_readEscape (text s : List Char) :
    Accords text (readEscape text) s ((unicodeEscape s).map fun found => (found.1, found.2.1)) := by
  rw [readEscape, unicodeEscape]
  refine (accords_readDigits text s).bind fun found _ => ?_
  obtain ⟨digits, rest⟩ := found
  dsimp only
  cases charOfHex? digits with
  | some c => exact accords_pure _
  | none => exact accords_refuse _

theorem ne_backslash {c : Char} {r : List Char} (alone : c = '\\' → r = [] → False)
    (escapes : ∀ d later, c = '\\' → r = d :: later → False) : c ≠ '\\' := by
  intro slash
  cases r with
  | nil => exact alone slash rfl
  | cons d later => exact escapes d later slash rfl

/-- A walk through a string has noted the place of its opening quote. -/
theorem accords_readStringFrom {text opening : List Char} (inside : opening <:+ text) (quote : Char)
    (out s : List Char) {rounds : Nat} (enough : s.length < rounds) :
    Accords text (readStringFrom text (offset text opening) quote rounds out) s
      ((quoted opening quote s).map fun found => (out ++ found.1, found.2.1)) := by
  induction rounds generalizing out s with
  | zero => exact absurd enough (Nat.not_lt_zero _)
  | succ rounds ih =>
    cases s using quoted.fun_cases quote with
    | case1 =>
      rw [readStringFrom, quoted]
      exact accords_bump_nil.step ((accords_set inside).step (accords_refuse _))
    | case2 r =>
      rw [readStringFrom, quoted]
      exact (accords_bump '\n' r).step ((accords_set inside).step (accords_refuse _))
    | case3 =>
      rw [readStringFrom, quoted]
      exact (accords_bump '\\' []).step (accords_bump_nil.step (accords_refuse _))
    | case4 r =>
      have fewer := Nat.lt_of_succ_lt (Nat.lt_of_succ_lt_succ enough)
      rw [readStringFrom, quoted]
      refine (accords_bump '\\' _).step ((accords_bump 'u' r).step ?_)
      refine (accords_readEscape text r).bind fun found _ => ?_
      have shorter := Nat.lt_of_le_of_lt found.2.length_le fewer
      refine (ih (out ++ [found.1]) found.2.1 shorter).last fun later => ?_
      exact congrArg (fun text => Except.ok (text, later.2.1))
        (List.append_cons out found.1 later.1)
    | case5 r =>
      have fewer := Nat.lt_of_succ_lt (Nat.lt_of_succ_lt_succ enough)
      rw [readStringFrom, quoted]
      refine (accords_bump '\\' _).step ((accords_bump '\n' r).step ?_)
      exact (ih out r fewer).last fun _ => rfl
    | case6 c r other onLine =>
      have fewer := Nat.lt_of_succ_lt (Nat.lt_of_succ_lt_succ enough)
      rw [readStringFrom, quoted]
      · refine (accords_bump '\\' _).step ((accords_bump c r).step ?_)
        dsimp only
        rw [if_neg other, if_neg onLine]
        refine (ih (out ++ [escaped c]) r fewer).last fun later => ?_
        exact congrArg (fun text => Except.ok (text, later.2.1))
          (List.append_cons out (escaped c) later.1)
      · exact other
      · exact onLine
    | case7 r onLine alone _ _ escapes =>
      rw [readStringFrom, quoted]
      · refine (accords_bump quote r).step ?_
        dsimp only
        rw [if_neg onLine, if_neg (ne_backslash alone escapes), if_pos rfl, if_pos rfl]
        change Accords text (pure out) r (.ok (out ++ [], r))
        rw [List.append_nil]
        exact accords_pure out
      all_goals assumption
    | case8 c r onLine alone _ _ escapes apart =>
      rw [readStringFrom, quoted]
      · refine (accords_bump c r).step ?_
        dsimp only
        rw [if_neg onLine, if_neg (ne_backslash alone escapes), if_neg apart, if_neg apart]
        refine (ih (out ++ [c]) r (Nat.lt_of_succ_lt_succ enough)).last fun later => ?_
        exact congrArg (fun text => Except.ok (text, later.2.1)) (List.append_cons out c later.1)
      all_goals assumption

theorem accords_openQuote (text : List Char) (c : Char) (r : List Char) :
    Accords text (openQuote text) (c :: r) (.ok ((offset text (c :: r), offset text r), r)) :=
  accords_get.step ((accords_bump c r).step (accords_get.step (accords_pure _)))

theorem accords_readString (text : List Char) (quote c : Char) (r : List Char) {rounds : Nat}
    (enough : r.length < rounds) :
    Accords text (readString text rounds quote) (c :: r)
      ((quoted (c :: r) quote r).map fun found => (found.1, found.2.1)) := by
  intro inside
  have later := accords_readStringFrom inside quote [] r enough
  exact (accords_openQuote text c r).step later inside

section Template
variable (text : List Char) (rounds : Nat)

/-- A walk through a template has noted where it and its text begin. It gives the text as it is
written, where the reader only tells what it leaves. -/
def AccordsTemplate : Prop :=
  ∀ opening body s : List Char, opening <:+ text → body <:+ text → s <:+ body →
    s.length < rounds → ∀ interpolated,
    Accords text
      (readTemplateFrom text rounds (offset text opening) (offset text body) interpolated) s
      ((template opening s).map fun found =>
        (.template (String.ofList (body.take (body.length - found.2.1.length - 1)))
          (interpolated || found.1), found.2.1))

def AccordsInterpolation : Prop :=
  ∀ depth s, s.length < rounds → Accords text (passInterpolation text rounds (depth + 1)) s
    ((interpolation depth s).map fun t => ((), t.1))

variable {text rounds}

theorem accordsTemplate_succ (ready : AccordsTemplate text rounds)
    (code : AccordsInterpolation text rounds) : AccordsTemplate text (rounds + 1) := by
  intro opening body s place within inside enough interpolated
  cases s using template.fun_cases with
  | case1 =>
    rw [readTemplateFrom, template]
    exact accords_bump_nil.step ((accords_set place).step (accords_refuse _))
  | case2 r =>
    obtain ⟨raw, rfl⟩ := inside
    rw [readTemplateFrom, template]
    refine (accords_bump '`' r).step (accords_get.step ?_)
    -- The backtick is one byte, so the cut stops right before it.
    have behind : '`' :: r <:+ text := (List.suffix_append raw _).trans within
    have stop : offset text r - 1 = offset text ('`' :: r) :=
      Nat.sub_eq_of_eq_add (@offset_add text ['`'] r behind).symm
    rw [stop]
    refine (accords_lift (slice?_offset within)).step ?_
    change Accords text _ r (.ok (Literal.template (String.ofList
      ((raw ++ '`' :: r).take ((raw ++ '`' :: r).length - r.length - 1))) (interpolated || false), r))
    rw [take_raw, Bool.or_false]
    exact accords_pure _
  | case3 =>
    have again := ready opening body [] place within List.nil_suffix
      (Nat.lt_of_succ_lt_succ enough) interpolated
    rw [readTemplateFrom, template]
    refine (accords_bump '\\' []).step (accords_bump_nil.step ?_)
    rw [template] at again
    exact again
  | case4 c r =>
    have fewer := Nat.lt_of_succ_lt (Nat.lt_of_succ_lt_succ enough)
    have behind : r <:+ body := (List.suffix_append ['\\', c] r).trans inside
    rw [readTemplateFrom, template]
    refine (accords_bump '\\' _).step ((accords_bump c r).step ?_)
    exact (ready opening body r place within behind fewer interpolated).last fun _ => rfl
  | case5 r =>
    have fewer := Nat.lt_of_succ_lt (Nat.lt_of_succ_lt_succ enough)
    have behind : r <:+ body := (List.suffix_append ['$', '{'] r).trans inside
    rw [readTemplateFrom, template]
    refine (accords_bump '$' _).step (accords_peek.step ((accords_bump '{' r).step ?_))
    refine (code 0 r fewer).bind fun t _ => ?_
    have shorter := Nat.lt_trans t.length_lt fewer
    refine (ready opening body t.1 place within (t.2.1.trans behind) shorter true).last
      fun later => ?_
    exact congrArg (fun shown => Except.ok (Literal.template _ shown, later.2.1))
      (Bool.or_true interpolated)
  | case6 c r backtick alone escapes opens =>
    have later := ready opening body r place within ((List.suffix_cons c r).trans inside)
      (Nat.lt_of_succ_lt_succ enough) interpolated
    rw [readTemplateFrom, template]
    · refine (accords_bump c r).step ?_
      dsimp only
      rw [if_neg (ne_backslash alone escapes), if_neg backtick]
      split
      · rename_i dollar
        refine accords_peek.step ?_
        rw [if_neg]
        · exact later.last fun _ => rfl
        · intro brace
          obtain ⟨rest, shape⟩ := List.head?_eq_some_iff.1 brace
          exact opens rest dollar shape
      · exact later.last fun _ => rfl
    all_goals assumption

theorem accordsInterpolation_succ (ready : AccordsTemplate text rounds)
    (code : AccordsInterpolation text rounds) : AccordsInterpolation text (rounds + 1) := by
  intro depth s enough
  cases depth, s using interpolation.fun_cases with
  | case1 depth =>
    rw [passInterpolation, interpolation]
    exact accords_peek.step (accords_refuse _)
  | case2 depth c r quote =>
    have fewer := Nat.lt_of_succ_lt_succ enough
    rw [passInterpolation, interpolation.eq_def]
    refine accords_peek.step ?_
    dsimp only [List.head?_cons]
    rw [if_pos quote, if_pos quote]
    refine (accords_readString text c c r fewer).bind fun found _ => ?_
    exact (code depth found.2.1 (Nat.lt_trans found.2.length_lt fewer)).last fun _ => rfl
  | case3 depth r quote =>
    have fewer := Nat.lt_of_succ_lt_succ enough
    rw [passInterpolation, interpolation.eq_def]
    refine accords_peek.step ?_
    dsimp only [List.head?_cons]
    rw [if_neg quote, if_neg quote, if_pos rfl, if_pos rfl]
    intro inside
    have behind : r <:+ text := (List.suffix_cons _ r).trans inside
    have read := ready ('`' :: r) r r inside behind (List.suffix_refl r) fewer false
    refine (accords_openQuote text '`' r).step (read.bind fun found _ => ?_) inside
    exact (code depth found.2.1 (Nat.lt_trans found.2.length_lt fewer)).last fun _ => rfl
  | case4 depth r quote backtick =>
    rw [passInterpolation, interpolation.eq_def]
    refine accords_peek.step ?_
    dsimp only [List.head?_cons]
    rw [if_neg quote, if_neg quote, if_neg backtick, if_neg backtick, if_pos rfl, if_pos rfl]
    refine (accords_bump _ r).step ?_
    exact (code (depth + 1) r (Nat.lt_of_succ_lt_succ enough)).last fun _ => rfl
  | case5 r quote backtick opens =>
    rw [passInterpolation, interpolation]
    refine accords_peek.step ?_
    dsimp only [List.head?_cons]
    rw [if_neg quote, if_neg quote, if_neg backtick, if_neg backtick, if_neg opens, if_neg opens,
      if_pos rfl, if_pos rfl]
    refine (accords_bump _ r).step ?_
    obtain ⟨rounds, rfl⟩ :=
      Nat.exists_eq_add_one.2 (Nat.zero_lt_of_lt (Nat.lt_of_succ_lt_succ enough))
    rw [passInterpolation]
    exact accords_pure _
  | case6 r outer quote backtick opens =>
    rw [passInterpolation, interpolation]
    refine accords_peek.step ?_
    dsimp only [List.head?_cons]
    rw [if_neg quote, if_neg quote, if_neg backtick, if_neg backtick, if_neg opens, if_neg opens,
      if_pos rfl, if_pos rfl]
    refine (accords_bump _ r).step ?_
    exact (code outer r (Nat.lt_of_succ_lt_succ enough)).last fun _ => rfl
  | case7 depth c r quote backtick opens closes =>
    rw [passInterpolation, interpolation.eq_def]
    refine accords_peek.step ?_
    dsimp only [List.head?_cons]
    rw [if_neg quote, if_neg quote, if_neg backtick, if_neg backtick, if_neg opens, if_neg opens,
      if_neg closes, if_neg closes]
    refine (accords_bump c r).step ?_
    exact (code depth r (Nat.lt_of_succ_lt_succ enough)).last fun _ => rfl

theorem accords_template_interpolation (text : List Char) (rounds : Nat) :
    AccordsTemplate text rounds ∧ AccordsInterpolation text rounds := by
  induction rounds with
  | zero =>
    exact ⟨fun _ _ _ _ _ _ enough => absurd enough (Nat.not_lt_zero _),
      fun _ _ enough => absurd enough (Nat.not_lt_zero _)⟩
  | succ rounds ih =>
    exact ⟨accordsTemplate_succ ih.1 ih.2, accordsInterpolation_succ ih.1 ih.2⟩

theorem accords_readTemplate (text r : List Char) {rounds : Nat} (enough : r.length < rounds) :
    Accords text (readTemplate text rounds) ('`' :: r) ((template ('`' :: r) r).map fun found =>
      (.template (String.ofList (r.take (r.length - found.2.1.length - 1))) found.1,
        found.2.1)) := by
  intro inside
  have behind : r <:+ text := (List.suffix_cons _ r).trans inside
  have read := (accords_template_interpolation text rounds).1 ('`' :: r) r r inside behind
    (List.suffix_refl r) enough false
  exact (accords_openQuote text '`' r).step read inside

end Template

/-- What stands between two noted places is cut out of the text. -/
theorem accords_cut {text part rest s : List Char} (inside : part ++ rest <:+ text) :
    Accords text (cut text (offset text (part ++ rest)) (offset text rest)) s (.ok (part, s)) :=
  accords_lift (slice?_offset inside)

private theorem accords_passSign (text : List Char) (c : Char) (r : List Char) :
    Accords text (passSign text) (c :: r)
      (.ok ((), if c = '-' ∨ c = '+' then r else c :: r)) := by
  rw [passSign]
  refine accords_peek.step ?_
  simp only [List.head?_cons, Option.some.injEq]
  split
  · exact (accords_bump c r).step (accords_pure _)
  · exact accords_pure _

private theorem isNumberPart_of_isDigit {c : Char} (digit : isDigit c = true) :
    isNumberPart c = true := by
  have all : ∀ d ∈ "0123456789".toList, isNumberPart d = true := forall_mem_of_all (by decide)
  exact all c (mem_digits digit)

theorem accords_readNumber (text : List Char) {c : Char} (r : List Char)
    (begins : c = '-' ∨ c = '+' ∨ isDigit c = true) {rounds : Nat}
    (enough : (c :: r).length < rounds) :
    Accords text (readNumber text rounds) (c :: r)
      ((number c r).map fun found => (.number (String.ofList found.1), found.2.1)) := by
  intro inside
  -- A digit in front belongs to the run of number parts, a sign stands before it.
  have left : (if c = '-' ∨ c = '+' then r else c :: r).dropWhile isNumberPart =
      r.dropWhile isNumberPart := by
    split
    · rfl
    · rename_i unsigned
      have digit : isDigit c = true := by
        rcases begins with minus | plus | digit
        · exact absurd (.inl minus) unsigned
        · exact absurd (.inr plus) unsigned
        · exact digit
      exact List.dropWhile_cons_of_pos (isNumberPart_of_isDigit digit)
  have fewer : (if c = '-' ∨ c = '+' then r else c :: r).length < rounds := by
    split
    · exact Nat.lt_of_succ_lt enough
    · exact enough
  have shape : (c :: r.takeWhile isNumberPart) ++ r.dropWhile isNumberPart = c :: r :=
    congrArg (c :: ·) List.takeWhile_append_dropWhile
  have written := @accords_cut text (c :: r.takeWhile isNumberPart) (r.dropWhile isNumberPart)
    (r.dropWhile isNumberPart) (shape ▸ inside)
  rw [shape] at written
  refine (accords_get.step ((accords_passSign text c r).step
    ((accords_passWhile text _ _ fewer).step (accords_get.step ?_)))) inside
  rw [left]
  refine written.step ?_
  unfold number
  dsimp only
  split
  · exact accords_pure _
  · exact (accords_set inside).step (accords_refuse _)

theorem accords_readName (text s : List Char) {rounds : Nat} (enough : s.length < rounds) :
    Accords text (readName text rounds) s
      (.ok (s.takeWhile isIdentifierPart, s.dropWhile isIdentifierPart)) := by
  intro inside
  have shape : s.takeWhile isIdentifierPart ++ s.dropWhile isIdentifierPart = s :=
    List.takeWhile_append_dropWhile
  have name := @accords_cut text (s.takeWhile isIdentifierPart) (s.dropWhile isIdentifierPart)
    (s.dropWhile isIdentifierPart) (shape.symm ▸ inside)
  rw [shape] at name
  exact accords_get.step ((accords_passWhile text _ s enough).step (accords_get.step name)) inside

theorem accords_readSegments (text name s : List Char) {rounds : Nat}
    (enough : s.length < rounds) :
    Accords text (readSegments text rounds name) s
      ((segments s).map fun found => (name ++ found.1, found.2.1)) := by
  induction rounds generalizing name s with
  | zero => exact absurd enough (Nat.not_lt_zero _)
  | succ rounds ih =>
    cases s using segments.fun_cases with
    | case1 r nameless =>
      have read := accords_readName text r (Nat.lt_of_succ_lt_succ enough)
      have whole : r.takeWhile isIdentifierPart ++ r.dropWhile isIdentifierPart = r :=
        List.takeWhile_append_dropWhile
      rw [nameless, List.nil_append] at whole
      rw [readSegments, segments, if_pos nameless]
      refine accords_peek.step ((accords_bump '.' r).step (read.step ?_))
      rw [if_pos nameless, whole]
      exact accords_refuse _
    | case2 r named =>
      have fewer := Nat.lt_of_succ_lt_succ enough
      have shorter := Nat.lt_of_le_of_lt (Rest.pastWhile isIdentifierPart r).length_le fewer
      rw [readSegments, segments, if_neg named]
      refine accords_peek.step ((accords_bump '.' r).step ?_)
      refine (accords_readName text r fewer).step ?_
      rw [if_neg named]
      refine (ih (name ++ '.' :: r.takeWhile isIdentifierPart) _ shorter).last fun later => ?_
      exact congrArg (fun name => Except.ok (name, later.2.1)) (List.append_assoc _ _ _).symm
    | case3 s other =>
      rw [readSegments, segments]
      · refine accords_peek.step ?_
        rw [if_neg]
        · change Accords text (pure name) s (.ok (name ++ [], s))
          rw [List.append_nil]
          exact accords_pure _
        · intro dot
          obtain ⟨rest, shape⟩ := List.head?_eq_some_iff.1 dot
          exact other rest shape
      · exact other

theorem accords_readPath (text s : List Char) {rounds : Nat} (enough : s.length < rounds) :
    Accords text (readPath text rounds) s ((path s).map fun found => (found.1, found.2.1)) := by
  have shorter (p : Char → Bool) : (s.dropWhile p).length < rounds :=
    Nat.lt_of_le_of_lt (List.dropWhile_suffix p).length_le enough
  rw [readPath, path]
  refine (accords_readName text s enough).step ?_
  cases s with
  | nil => exact accords_refuse _
  | cons c r =>
    by_cases part : isIdentifierPart c = true
    · have fewer := shorter isIdentifierPart
      rw [List.dropWhile_cons_of_pos part] at fewer
      rw [ProperRest.pastWhile?, if_pos part, List.takeWhile_cons_of_pos part,
        List.dropWhile_cons_of_pos part, if_neg (List.cons_ne_nil _ _)]
      exact (accords_readSegments text _ _ fewer).last fun _ => rfl
    · rw [ProperRest.pastWhile?, if_neg part, List.takeWhile_cons_of_neg part,
        List.dropWhile_cons_of_neg part, if_pos rfl]
      exact accords_refuse _

theorem accords_readKey (text : List Char) (c : Char) (r : List Char) {rounds : Nat}
    (enough : (c :: r).length < rounds) :
    Accords text (readKey text rounds c) (c :: r)
      ((key c r).map fun found => (found.1, found.2.1)) := by
  rw [readKey, key]
  split
  · exact (accords_readString text c c r (Nat.lt_of_succ_lt enough)).last fun _ => rfl
  split
  · rename_i start
    have part := isIdentifierPart_of_isIdentifierStart start
    have name := accords_readName text (c :: r) enough
    rw [List.takeWhile_cons_of_pos part, List.dropWhile_cons_of_pos part] at name
    exact name
  · exact accords_refuse _

end CommandReference.Literal.Reader
