import CommandReference.Literal.Balance
import CommandReference.Proofs.Text.Part
import Mathlib.Data.List.Infix

/-! The tokens of a literal that holds no comment: single marks, strings in any of the three
quotes, and words, which are runs of other characters. Texts with the same tokens differ in the
blanks between tokens only. -/
namespace CommandReference.Literal
open Text

def isMark (c : Char) : Bool := decide (c ∈ ['{', '}', '[', ']', '(', ')', ',', ':'])

def opensString (c : Char) : Bool := decide (c ∈ ['\'', '"', '`'])

def isWordPart (c : Char) : Bool := !(isBlank c || isMark c || opensString c)

/-- Ends a token, unless it is empty. -/
def flush (token : List Char) (later : List (List Char)) : List (List Char) :=
  if token = [] then later else token :: later

/-- The tokens of a text, the first of which has been begun. -/
def tokensFrom (place : Place) (token : List Char) : List Char → List (List Char)
  | [] => flush token []
  | c :: cs =>
    if place ≠ .outside then
      if place.next c = .outside then (token ++ [c]) :: tokensFrom .outside [] cs
      else tokensFrom (place.next c) (token ++ [c]) cs
    else if isBlank c then flush token (tokensFrom .outside [] cs)
    else if isMark c then flush token ([c] :: tokensFrom .outside [] cs)
    else if opensString c then flush token (tokensFrom (.inside c) [c] cs)
    else tokensFrom .outside (token ++ [c]) cs

def tokens (cs : List Char) : List (List Char) := tokensFrom .outside [] cs

theorem flush_of_ne_nil {token : List Char} (some : token ≠ []) (later : List (List Char)) :
    flush token later = token :: later := if_neg some

private theorem flush_append (token : List Char) (first second : List (List Char)) :
    flush token (first ++ second) = flush token first ++ second := by
  rw [flush, flush]
  split
  · rfl
  · rfl

theorem mark_cases {c : Char} (mark : isMark c = true) :
    isBlank c = false ∧ opensString c = false := by
  have all : ∀ c ∈ ['{', '}', '[', ']', '(', ')', ',', ':'],
      isBlank c = false ∧ opensString c = false := forall_mem_of_all (by decide)
  exact all c (of_decide_eq_true mark)

theorem quote_cases {c : Char} (quote : opensString c = true) :
    isBlank c = false ∧ isMark c = false := by
  have all : ∀ c ∈ ['\'', '"', '`'], isBlank c = false ∧ isMark c = false :=
    forall_mem_of_all (by decide)
  exact all c (of_decide_eq_true quote)

theorem isBlank_cases {c : Char} (blank : isBlank c = true) : opensString c = false := by
  by_contra quote
  rw [Bool.not_eq_false] at quote
  exact absurd blank (by simp [quote_cases quote])

theorem part_cases {c : Char} (part : isWordPart c = true) : opensString c = false := by
  simp only [isWordPart, Bool.not_eq_true', Bool.or_eq_false_iff] at part
  exact part.2

section Steps
variable {c : Char} (token cs : List Char)

theorem tokensFrom_blank (blank : isBlank c = true) :
    tokensFrom .outside token (c :: cs) = flush token (tokens cs) := by
  rw [tokensFrom, if_neg (by simp), if_pos blank, tokens]

theorem tokensFrom_mark (mark : isMark c = true) :
    tokensFrom .outside token (c :: cs) = flush token ([c] :: tokens cs) := by
  rw [tokensFrom, if_neg (by simp), if_neg (by simp [mark_cases mark]), if_pos mark, tokens]

theorem tokensFrom_quote (quote : opensString c = true) :
    tokensFrom .outside token (c :: cs) = flush token (tokensFrom (.inside c) [c] cs) := by
  have other := quote_cases quote
  rw [tokensFrom, if_neg (by simp), if_neg (by simp [other]), if_neg (by simp [other]),
    if_pos quote]

theorem tokensFrom_part (part : isWordPart c = true) :
    tokensFrom .outside token (c :: cs) = tokensFrom .outside (token ++ [c]) cs := by
  simp only [isWordPart, Bool.not_eq_true', Bool.or_eq_false_iff] at part
  rw [tokensFrom, if_neg (by simp), if_neg (by simp [part]), if_neg (by simp [part]),
    if_neg (by simp [part])]

theorem tokensFrom_close {place : Place} (inside : place ≠ .outside)
    (closes : place.next c = .outside) :
    tokensFrom place token (c :: cs) = (token ++ [c]) :: tokens cs := by
  rw [tokensFrom, if_pos inside, if_pos closes, tokens]

theorem tokensFrom_within {place : Place} (inside : place ≠ .outside)
    (stays : place.next c ≠ .outside) :
    tokensFrom place token (c :: cs) = tokensFrom (place.next c) (token ++ [c]) cs := by
  rw [tokensFrom, if_pos inside, if_neg stays]

end Steps

theorem character_cases (c : Char) :
    isBlank c = true ∨ isMark c = true ∨ opensString c = true ∨ isWordPart c = true := by
  rw [isWordPart]
  cases isBlank c <;> cases isMark c <;> cases opensString c <;> simp

/-- A text at whose start no word goes on. -/
def Bounds (cs : List Char) : Prop := ∀ c ∈ cs.head?, isWordPart c = false

section Tokens
variable {c : Char} (cs : List Char)

theorem tokens_blank (blank : isBlank c = true) : tokens (c :: cs) = tokens cs :=
  tokensFrom_blank [] cs blank

theorem tokens_mark (mark : isMark c = true) : tokens (c :: cs) = [c] :: tokens cs :=
  tokensFrom_mark [] cs mark

theorem tokens_quote (quote : opensString c = true) :
    tokens (c :: cs) = tokensFrom (.inside c) [c] cs :=
  tokensFrom_quote [] cs quote

end Tokens

theorem tokens_blanks {gap : List Char} (blank : ∀ c ∈ gap, isBlank c = true) (cs : List Char) :
    tokens (gap ++ cs) = tokens cs := by
  induction gap with
  | nil => rfl
  | cons c gap ih =>
    rw [List.forall_mem_cons] at blank
    rw [List.cons_append, tokens_blank _ blank.1, ih blank.2]

theorem tokensFrom_bounds {token cs : List Char} (some : token ≠ []) (bounds : Bounds cs) :
    tokensFrom .outside token cs = token :: tokens cs := by
  cases cs with
  | nil => exact flush_of_ne_nil some []
  | cons c cs =>
    rcases character_cases c with blank | mark | quote | part
    · rw [tokensFrom_blank _ _ blank, flush_of_ne_nil some, tokens_blank _ blank]
    · rw [tokensFrom_mark _ _ mark, flush_of_ne_nil some, tokens_mark _ mark]
    · rw [tokensFrom_quote _ _ quote, flush_of_ne_nil some, tokens_quote _ quote]
    · cases part.symm.trans (bounds c rfl)

private theorem tokensFrom_parts {token word cs : List Char}
    (parts : ∀ c ∈ word, isWordPart c = true) :
    tokensFrom .outside token (word ++ cs) = tokensFrom .outside (token ++ word) cs := by
  induction word generalizing token with
  | nil => rw [List.nil_append, List.append_nil]
  | cons c word ih =>
    rw [List.forall_mem_cons] at parts
    rw [List.cons_append, tokensFrom_part _ _ parts.1, ih parts.2, List.append_assoc,
      List.singleton_append]

theorem tokens_word {word cs : List Char} (some : word ≠ [])
    (parts : ∀ c ∈ word, isWordPart c = true) (bounds : Bounds cs) :
    tokens (word ++ cs) = word :: tokens cs := by
  rw [tokens, tokensFrom_parts parts, List.nil_append, tokensFrom_bounds some bounds]

/-- What may stand between two quotes: no quote and no backslash alone. -/
inductive Inert (quote : Char) : List Char → Prop where
  | nil : Inert quote []
  | plain {c : Char} {body : List Char} : c ≠ quote → c ≠ '\\' → Inert quote body →
      Inert quote (c :: body)
  | escape {c : Char} {body : List Char} : Inert quote body → Inert quote ('\\' :: c :: body)

theorem Inert.append {quote : Char} {first second : List Char} (left : Inert quote first)
    (right : Inert quote second) : Inert quote (first ++ second) := by
  induction left with
  | nil => exact right
  | plain other slash _ ih => exact .plain other slash ih
  | escape _ ih => exact .escape ih

theorem next_inside {quote c : Char} (other : c ≠ quote) (plain : c ≠ '\\') :
    Place.next (.inside quote) c = .inside quote := by
  simp [Place.next, other, plain]

theorem next_quote {quote : Char} (plain : quote ≠ '\\') :
    Place.next (.inside quote) quote = .outside := by
  simp [Place.next, plain]

private theorem tokensFrom_inert {quote : Char} {body : List Char} (inert : Inert quote body)
    (token cs : List Char) :
    tokensFrom (.inside quote) token (body ++ cs) = tokensFrom (.inside quote) (token ++ body) cs := by
  induction inert generalizing token with
  | nil => rw [List.nil_append, List.append_nil]
  | @plain c body other plain _ ih =>
    have stays := next_inside other plain
    rw [List.cons_append, tokensFrom_within _ _ (by simp) (by simp [stays]), stays, ih,
      List.append_assoc, List.singleton_append]
  | @escape c body _ ih =>
    have escaped : Place.next (.inside quote) '\\' = .escaped quote := rfl
    have back : Place.next (.escaped quote) c = .inside quote := rfl
    rw [List.cons_append, tokensFrom_within _ _ (by simp) (by simp [escaped]), escaped,
      List.cons_append, tokensFrom_within _ _ (by simp) (by simp [back]), back, ih]
    simp

theorem slash_of_quote {quote : Char} (opens : opensString quote = true) : quote ≠ '\\' := by
  rintro rfl
  exact absurd opens (by decide)

theorem tokens_string {quote : Char} (opens : opensString quote = true) {body : List Char}
    (inert : Inert quote body) (cs : List Char) :
    tokens (quote :: body ++ quote :: cs) = (quote :: body ++ [quote]) :: tokens cs := by
  have closes := next_quote (slash_of_quote opens)
  rw [List.cons_append, tokens_quote _ opens, tokensFrom_inert inert,
    tokensFrom_close _ _ (by simp) closes]
  rfl

private theorem exists_of_tokensFrom_within {place : Place} (inside : place ≠ .outside)
    {token cs first : List Char} {later : List (List Char)} (some : token ≠ [])
    (found : tokensFrom place token cs = first :: later) :
    ∃ body rest, cs = body ++ rest ∧ first = token ++ body ∧ tokens rest = later := by
  induction cs generalizing place token with
  | nil =>
    rw [tokensFrom, flush_of_ne_nil some] at found
    cases found
    exact ⟨[], [], rfl, (List.append_nil _).symm, rfl⟩
  | cons c cs ih =>
    by_cases closes : place.next c = .outside
    · rw [tokensFrom_close _ _ inside closes] at found
      cases found
      exact ⟨[c], cs, rfl, rfl, rfl⟩
    · rw [tokensFrom_within _ _ inside closes] at found
      obtain ⟨body, rest, rfl, rfl, same⟩ := ih closes (by simp) found
      exact ⟨c :: body, rest, rfl, by simp, same⟩

private theorem exists_of_tokensFrom_word {token cs first : List Char} {later : List (List Char)}
    (some : token ≠ []) (found : tokensFrom .outside token cs = first :: later) :
    ∃ body rest, cs = body ++ rest ∧ first = token ++ body ∧ tokens rest = later ∧ Bounds rest := by
  induction cs generalizing token with
  | nil =>
    rw [tokensFrom, flush_of_ne_nil some] at found
    cases found
    exact ⟨[], [], rfl, (List.append_nil _).symm, rfl, fun c first => by cases first⟩
  | cons c cs ih =>
    by_cases part : isWordPart c = true
    · rw [tokensFrom_part _ _ part] at found
      obtain ⟨body, rest, rfl, rfl, same, bounds⟩ := ih (by simp) found
      exact ⟨c :: body, rest, rfl, by simp, same, bounds⟩
    · have bounds : Bounds (c :: cs) := by
        rintro d same
        cases same
        simpa using part
      rw [tokensFrom_bounds some bounds] at found
      cases found
      exact ⟨[], c :: cs, rfl, (List.append_nil _).symm, rfl, bounds⟩

/-- The first token stands after blanks, and no word goes on behind it. -/
theorem exists_of_tokens {cs first : List Char} {later : List (List Char)}
    (found : tokens cs = first :: later) :
    ∃ gap rest, cs = gap ++ (first ++ rest) ∧ (∀ c ∈ gap, isBlank c = true) ∧
      tokens rest = later ∧ ((∃ c ∈ first.head?, isWordPart c = true) → Bounds rest) := by
  induction cs with
  | nil => cases found
  | cons c cs ih =>
    rcases character_cases c with blank | mark | quote | part
    · rw [tokens_blank _ blank] at found
      obtain ⟨gap, rest, rfl, blanks, same, bounds⟩ := ih found
      exact ⟨c :: gap, rest, rfl, List.forall_mem_cons.2 ⟨blank, blanks⟩, same, bounds⟩
    · rw [tokens_mark _ mark] at found
      cases found
      refine ⟨[], cs, rfl, List.forall_mem_nil _, rfl, ?_⟩
      rintro ⟨d, same, part⟩
      cases same
      simp [isWordPart, mark] at part
    · rw [tokens_quote _ quote] at found
      obtain ⟨body, rest, rfl, rfl, same⟩ := exists_of_tokensFrom_within (by simp) (by simp) found
      refine ⟨[], rest, rfl, List.forall_mem_nil _, same, ?_⟩
      rintro ⟨d, same, part⟩
      cases same
      simp [isWordPart, quote] at part
    · rw [tokens, tokensFrom_part _ _ part] at found
      obtain ⟨body, rest, rfl, rfl, same, bounds⟩ := exists_of_tokensFrom_word (by simp) found
      exact ⟨[], rest, rfl, List.forall_mem_nil _, same, fun _ => bounds⟩

theorem infix_of_mem_tokens {token cs : List Char} (member : token ∈ tokens cs) : token <:+: cs := by
  generalize found : tokens cs = all at member
  induction all generalizing cs with
  | nil => cases member
  | cons first later ih =>
    obtain ⟨gap, rest, rfl, -, same, -⟩ := exists_of_tokens found
    rcases List.mem_cons.1 member with rfl | member
    · exact ⟨gap, rest, List.append_assoc _ _ _⟩
    · refine (ih same member).trans ?_
      exact (List.suffix_append_of_suffix (List.suffix_append first rest)).isInfix

/-- The place of the character behind a text. -/
def placeAfter (place : Place) (cs : List Char) : Place := cs.foldl Place.next place

theorem next_outside {c : Char} (plain : opensString c = false) :
    Place.next .outside c = .outside := by
  simpa [opensString, Place.next] using plain

theorem next_opens {c : Char} (opens : opensString c = true) :
    Place.next .outside c = .inside c := by
  have quote : c = '\'' ∨ c = '"' ∨ c = '`' := by simpa [opensString] using opens
  exact if_pos quote

theorem flush_eq_append (token : List Char) (later : List (List Char)) :
    flush token later = flush token [] ++ later := flush_append token [] later

/-- The tokens of a text are those that one part of it completes and those that are found from
there on. -/
theorem exists_tokensFrom_append (place : Place) (token before : List Char) :
    ∃ done begun, ∀ cs, tokensFrom place token (before ++ cs) =
      done ++ tokensFrom (placeAfter place before) begun cs := by
  induction before generalizing place token with
  | nil => exact ⟨[], token, fun _ => rfl⟩
  | cons c before ih =>
    obtain ⟨done, begun, split⟩ := ih (place.next c) (token ++ [c])
    obtain ⟨doneAfresh, begunAfresh, splitAfresh⟩ := ih (place.next c) []
    simp only [placeAfter, List.foldl_cons, List.cons_append] at split splitAfresh ⊢
    by_cases inside : place = .outside
    · subst inside
      rcases character_cases c with blank | mark | quote | part
      · rw [next_outside (isBlank_cases blank)] at splitAfresh ⊢
        refine ⟨flush token [] ++ doneAfresh, begunAfresh, fun cs => ?_⟩
        rw [tokensFrom_blank _ _ blank, tokens, splitAfresh, flush_eq_append, List.append_assoc]
      · rw [next_outside (mark_cases mark).2] at splitAfresh ⊢
        refine ⟨flush token [] ++ [c] :: doneAfresh, begunAfresh, fun cs => ?_⟩
        rw [tokensFrom_mark _ _ mark, tokens, splitAfresh, flush_eq_append, List.append_assoc,
          List.cons_append]
      · obtain ⟨doneInside, begunInside, splitInside⟩ := ih (.inside c) [c]
        rw [next_opens quote]
        refine ⟨flush token [] ++ doneInside, begunInside, fun cs => ?_⟩
        rw [tokensFrom_quote _ _ quote, splitInside, flush_eq_append, List.append_assoc, placeAfter]
      · rw [next_outside (part_cases part)] at split ⊢
        refine ⟨done, begun, fun cs => ?_⟩
        rw [tokensFrom_part _ _ part, split]
    · by_cases closes : place.next c = .outside
      · rw [closes] at splitAfresh ⊢
        refine ⟨(token ++ [c]) :: doneAfresh, begunAfresh, fun cs => ?_⟩
        rw [tokensFrom_close _ _ inside closes, tokens, splitAfresh, List.cons_append]
      · refine ⟨done, begun, fun cs => ?_⟩
        rw [tokensFrom_within _ _ inside closes, split]

/-- A blank outside all strings parts the tokens. -/
theorem tokens_append_blank {before : List Char} (outside : placeAfter .outside before = .outside)
    {b : Char} (blank : isBlank b = true) (after : List Char) :
    tokens (before ++ b :: after) = tokens before ++ tokens after := by
  obtain ⟨done, begun, split⟩ := exists_tokensFrom_append .outside [] before
  rw [outside] at split
  have alone : tokens before = done ++ flush begun [] := by
    have ended := split []
    rwa [List.append_nil, tokensFrom] at ended
  rw [alone, tokens, split, tokensFrom_blank _ _ blank, flush_eq_append, List.append_assoc]

theorem exists_tokensFrom_begun (place : Place) {token : List Char} (some : token ≠ [])
    (cs : List Char) : ∃ body later, tokensFrom place token cs = (token ++ body) :: later := by
  induction cs generalizing place token with
  | nil => exact ⟨[], [], by rw [tokensFrom, flush_of_ne_nil some, List.append_nil]⟩
  | cons c cs ih =>
    have begun : token ++ [c] ≠ [] := by simp
    by_cases inside : place = .outside
    · subst inside
      by_cases part : isWordPart c = true
      · obtain ⟨body, later, same⟩ := ih .outside begun
        refine ⟨c :: body, later, ?_⟩
        rw [tokensFrom_part _ _ part, same, List.append_assoc, List.singleton_append]
      · refine ⟨[], tokens (c :: cs), ?_⟩
        rw [tokensFrom_bounds some, List.append_nil]
        rintro d same
        cases same
        simpa using part
    · by_cases closes : place.next c = .outside
      · exact ⟨[c], tokens cs, tokensFrom_close _ _ inside closes⟩
      · obtain ⟨body, later, same⟩ := ih (place.next c) begun
        refine ⟨c :: body, later, ?_⟩
        rw [tokensFrom_within _ _ inside closes, same, List.append_assoc, List.singleton_append]

theorem exists_mem_tokens {before : List Char} (inside : placeAfter .outside before ≠ .outside)
    (c : Char) (after : List Char) : ∃ found ∈ tokens (before ++ c :: after), c ∈ found := by
  obtain ⟨done, begun, split⟩ := exists_tokensFrom_append .outside [] before
  rw [tokens, split]
  by_cases closes : (placeAfter .outside before).next c = .outside
  · rw [tokensFrom_close _ _ inside closes]
    exact ⟨begun ++ [c], by simp, by simp⟩
  · have more : begun ++ [c] ≠ [] := by simp
    obtain ⟨body, later, same⟩ := exists_tokensFrom_begun _ more after
    rw [tokensFrom_within _ _ inside closes, same]
    exact ⟨begun ++ [c] ++ body, by simp, by simp⟩

private theorem placeAfter_cases (cs : List Char) :
    placeAfter .outside cs = .outside ∨ ∃ quote, opensString quote = true ∧
      (placeAfter .outside cs = .inside quote ∨ placeAfter .outside cs = .escaped quote) := by
  induction cs using List.reverseRecOn with
  | nil => exact .inl rfl
  | append_singleton cs c ih =>
    rw [placeAfter, List.foldl_append, List.foldl_cons, List.foldl_nil]
    rw [placeAfter] at ih
    rcases ih with outside | ⟨quote, opens, inside | escaped⟩
    · rw [outside]
      cases opens : opensString c with
      | false => exact .inl (next_outside opens)
      | true => exact .inr ⟨c, opens, .inl (next_opens opens)⟩
    · rw [inside]
      by_cases slash : c = '\\'
      · exact .inr ⟨quote, opens, .inr (by rw [slash]; rfl)⟩
      · by_cases same : c = quote
        · exact .inl (by rw [same]; exact next_quote (slash_of_quote opens))
        · exact .inr ⟨quote, opens, .inl (next_inside same slash)⟩
    · rw [escaped]
      exact .inr ⟨quote, opens, .inl rfl⟩

theorem next_ne_outside {cs : List Char} (inside : placeAfter .outside cs ≠ .outside) {c : Char}
    (plain : opensString c = false) : (placeAfter .outside cs).next c ≠ .outside := by
  rcases placeAfter_cases cs with outside | ⟨quote, opens, within | escaped⟩
  · exact absurd outside inside
  · have other : c ≠ quote := by
      rintro rfl
      cases opens.symm.trans plain
    rw [within, Place.next]
    split <;> simp
  · rw [escaped]
    exact Place.noConfusion

theorem tokens_append_return {before : List Char}
    (outside : placeAfter .outside (before ++ ['\r']) = .outside) :
    placeAfter .outside before = .outside ∧ tokens (before ++ ['\r']) = tokens before := by
  have ahead : placeAfter .outside before = .outside := by
    by_contra inside
    rw [placeAfter, List.foldl_append] at outside
    exact next_ne_outside inside (by decide) outside
  exact ⟨ahead, (tokens_append_blank ahead (by decide) []).trans (List.append_nil _)⟩

end CommandReference.Literal
