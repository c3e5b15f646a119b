import CommandReference.Proofs.Literal.Complete

/-! Only words of the grammar are read as literals that hold no function, so a text is read as
such a literal exactly where the grammar derives it. -/
namespace CommandReference.Literal
open Text

namespace Reader
open Grammar

section Sound
variable {bound : Nat} (only : ReadsOnly bound (fun s => taken (value s)) CallbackFree Value)
include only

private theorem readsOnly_field :
    ReadsOnly bound fieldFrom (fun field => CallbackFree field.2) (Field Value) := by
  intro s rest field short read free
  rw [fieldFrom] at read
  obtain ⟨_ | ⟨c, r⟩, start, read⟩ := Option.bind_eq_some_iff.1 read
  · cases read
  obtain ⟨⟨name, behind⟩, keyRead, read⟩ := Option.bind_eq_some_iff.1 read
  obtain ⟨u, colon, read⟩ := Option.bind_eq_some_iff.1 read
  obtain ⟨⟨content, left⟩, valueRead, same⟩ := Option.map_eq_some_iff.1 read
  cases same
  obtain ⟨gap, rfl, trivial⟩ := exists_gap_of_left_trivia start
  obtain ⟨key, split, named⟩ := exists_of_key keyRead
  obtain ⟨before, rfl, beforeTrivial⟩ := exists_gap_of_left_trivia (left_expect.1 colon)
  rw [split] at short ⊢
  have shorter : u.length ≤ bound := by
    simp only [List.length_append, List.length_cons] at short
    omega
  obtain ⟨after, word, rfl, some, afterTrivial, written⟩ := only shorter valueRead free
  refine ⟨gap, key ++ before ++ ':' :: after ++ word, by simp, ?_, trivial,
    .mk named beforeTrivial afterTrivial written⟩
  simp

theorem exists_of_items {close : Char} (mark : IsToken close) {s rest : List Char}
    {entries : List Literal} (short : s.length ≤ bound)
    (read : taken (items close s) = some (entries, rest))
    (free : ∀ item ∈ entries, CallbackFree item) :
    ∃ body, s = body ++ close :: rest ∧ Separated Value body entries :=
  (readsItems_items close).sound mark only short read free

private theorem exists_of_fields {s rest : List Char} {entries : List (String × Literal)}
    (short : s.length ≤ bound) (read : taken (fields s) = some (entries, rest))
    (free : ∀ field ∈ entries, CallbackFree field.2) :
    ∃ body, s = body ++ '}' :: rest ∧ Separated (Field Value) body entries :=
  readsItems_fields.sound (by decide) (readsOnly_field only) short read free

theorem exists_of_callFrom {callee : String} {w rest : List Char} {literal : Literal}
    (short : w.length ≤ bound) (read : callFrom callee w = some (literal, rest))
    (free : CallbackFree literal) :
    ∃ body entries, w = body ++ ')' :: rest ∧ literal = .call callee entries ∧
      Separated Value body entries := by
  obtain ⟨⟨entries, left⟩, inside, same⟩ := Option.map_eq_some_iff.1 read
  cases same
  cases free with
  | call free =>
    obtain ⟨body, same, separated⟩ := exists_of_items only (by decide) short inside free
    exact ⟨body, entries, same, rfl, separated⟩

private theorem exists_of_plainFrom {word t u rest : List Char} {literal : Literal}
    (name : Name word)
    (short : t.length ≤ bound) (start : left (trivia t) = some u)
    (read : plainFrom (String.ofList word) t u = some (literal, rest))
    (free : CallbackFree literal) :
    ∃ whole, word ++ t = whole ++ rest ∧ Value whole literal := by
  rw [plainFrom] at read
  split at read
  · obtain ⟨behind, -, same⟩ := Option.map_eq_some_iff.1 read
    cases same
    cases free
  split at read
  · next opens =>
    obtain ⟨r, rfl⟩ := List.head?_eq_some_iff.1 opens
    obtain ⟨w, entered, read⟩ := Option.bind_eq_some_iff.1 read
    cases (left_trivia_token (by decide) r).symm.trans (left_expect.1 entered)
    obtain ⟨gap, rfl, trivial⟩ := exists_gap_of_left_trivia start
    have shorter : r.length ≤ bound := by
      simp only [List.length_append, List.length_cons] at short
      omega
    obtain ⟨body, entries, rfl, rfl, separated⟩ := exists_of_callFrom only shorter read free
    exact ⟨word ++ gap ++ '(' :: body ++ [')'], by simp, .call name trivial separated⟩
  · cases read
    exact ⟨word, rfl, .path name⟩

private theorem exists_of_new {t rest : List Char} {literal : Literal}
    (stop : ∀ c ∈ t.head?, isIdentifierPart c = false) (short : t.length ≤ bound)
    (read : namedFrom "new" t = some (literal, rest)) (free : CallbackFree literal) :
    ∃ whole, "new".toList ++ t = whole ++ rest ∧ Value whole literal := by
  obtain ⟨u, start, fromCallee⟩ := Option.bind_eq_some_iff.1 read
  obtain ⟨⟨word, behind⟩, pathRead, fromOpening⟩ := Option.bind_eq_some_iff.1 fromCallee
  obtain ⟨w, entered, inside⟩ := Option.bind_eq_some_iff.1 fromOpening
  obtain ⟨rfl, named, -⟩ := exists_of_path pathRead
  obtain ⟨after, rfl, afterTrivial⟩ := exists_gap_of_left_trivia (left_expect.1 entered)
  obtain ⟨c, later, rfl, part⟩ := exists_cons_of_path named
  rw [List.cons_append] at start
  obtain ⟨gap, rfl, trivial⟩ := exists_gap_of_left_trivia start
  have some : gap ≠ [] := by
    rintro rfl
    cases part.symm.trans (stop c rfl)
  have shorter : w.length ≤ bound := by
    simp only [List.length_append, List.length_cons] at short
    omega
  obtain ⟨body, entries, rfl, rfl, separated⟩ := exists_of_callFrom only shorter inside free
  exact ⟨"new".toList ++ gap ++ (c :: later) ++ after ++ '(' :: body ++ [')'], by simp,
    .new trivial some named afterTrivial separated⟩

private theorem exists_of_namedFrom {word t rest : List Char} {literal : Literal}
    (named : Path word)
    (start : ∀ c ∈ word.head?, isIdentifierStart c = true)
    (stop : ∀ c ∈ t.head?, isIdentifierPart c = false) (short : t.length ≤ bound)
    (read : namedFrom (String.ofList word) t = some (literal, rest))
    (free : CallbackFree literal) :
    ∃ whole, word ++ t = whole ++ rest ∧ Value whole literal := by
  by_cases listed : String.ofList word ∈ reserved
  · have callback (passed : (left (callback 0 t)).map (fun rest => (Literal.callback, rest)) =
        some (literal, rest)) : False := by
      obtain ⟨behind, -, same⟩ := Option.map_eq_some_iff.1 passed
      cases same
      cases free
    have same : word = (String.ofList word).toList := String.toList_ofList.symm
    simp only [reserved, List.mem_cons, List.not_mem_nil, or_false] at listed
    rcases listed with is | is | is | is | is | is | is
    · rw [is] at read same
      cases read
      exact ⟨_, same ▸ rfl, .true⟩
    · rw [is] at read same
      cases read
      exact ⟨_, same ▸ rfl, .false⟩
    · rw [is] at read same
      cases read
      exact ⟨_, same ▸ rfl, .null⟩
    · rw [is] at read same
      cases read
      exact ⟨_, same ▸ rfl, .undefined⟩
    · rw [is] at read
      exact absurd read callback
    · rw [is] at read
      exact absurd read callback
    · rw [is] at read same
      rw [same]
      exact exists_of_new only stop short read free
  · rw [namedFrom_of_notMem listed] at read
    obtain ⟨u, behind, read⟩ := Option.bind_eq_some_iff.1 read
    exact exists_of_plainFrom only ⟨named, start, listed⟩ short behind read free

private theorem exists_of_wordFrom {c : Char} {r rest : List Char} {literal : Literal}
    (short : r.length ≤ bound) (read : wordFrom (c :: r) = some (literal, rest))
    (free : CallbackFree literal) :
    ∃ word, c :: r = word ++ rest ∧ Value word literal := by
  rw [wordFrom, valueFrom] at read
  split at read
  · next brace =>
    obtain ⟨⟨entries, left⟩, inside, same⟩ := Option.map_eq_some_iff.1 read
    cases same
    cases free with
    | object free =>
      obtain ⟨body, rfl, separated⟩ := exists_of_fields only short inside free
      exact ⟨'{' :: body ++ ['}'], by simp [brace], .object separated⟩
  split at read
  · next bracket =>
    obtain ⟨⟨entries, left⟩, inside, same⟩ := Option.map_eq_some_iff.1 read
    cases same
    cases free with
    | array free =>
      obtain ⟨body, rfl, separated⟩ := exists_of_items only (by decide) short inside free
      exact ⟨'[' :: body ++ [']'], by simp [bracket], .array separated⟩
  split at read
  · next isQuote =>
    obtain ⟨⟨text, left⟩, inside, same⟩ := Option.map_eq_some_iff.1 read
    cases same
    obtain ⟨body, rfl, held⟩ := exists_of_quoted _ isQuote inside
    exact ⟨c :: body ++ [c], by simp, .string isQuote held⟩
  split at read
  · next backtick =>
    obtain ⟨⟨interpolated, left⟩, inside, same⟩ := Option.map_eq_some_iff.1 read
    obtain ⟨raw, rfl, held⟩ := exists_of_template inside
    dsimp only at same
    rw [take_raw] at same
    cases same
    exact ⟨'`' :: raw ++ ['`'], by simp [backtick], .template held⟩
  split at read
  · obtain ⟨left, inside, same⟩ := Option.map_eq_some_iff.1 read
    cases same
    cases free
  split at read
  · next begins =>
    obtain ⟨⟨word, left⟩, inside, same⟩ := Option.map_eq_some_iff.1 read
    cases same
    obtain ⟨same, number⟩ := exists_of_number begins inside
    exact ⟨word, same, .number number⟩
  split at read
  · next start =>
    obtain ⟨⟨word, t⟩, pathRead, behind⟩ := Option.bind_eq_some_iff.1 read
    obtain ⟨same, named, stop⟩ := exists_of_path pathRead
    obtain ⟨d, later, rfl, -⟩ := exists_cons_of_path named
    rw [List.cons_append, List.cons.injEq] at same
    obtain ⟨rfl, rfl⟩ := same
    have shorter : t.length ≤ bound := by
      simp only [List.length_append] at short
      omega
    rw [← List.cons_append]
    exact exists_of_namedFrom only named (by simpa using start) stop shorter behind free
  · cases read

end Sound

theorem readsOnly (bound : Nat) :
    ReadsOnly bound (fun s => taken (value s)) CallbackFree Value := by
  induction bound using Nat.strong_induction_on with
  | _ bound shorter =>
    intro s rest literal short read free
    dsimp only at read
    rw [taken_value] at read
    obtain ⟨_ | ⟨c, r⟩, start, here⟩ := Option.bind_eq_some_iff.1 read
    · cases here
    · obtain ⟨gap, rfl, trivial⟩ := exists_gap_of_left_trivia start
      have less : r.length < bound := by
        simp only [List.length_append, List.length_cons] at short
        omega
      obtain ⟨word, same, written⟩ := exists_of_wordFrom (shorter _ less) le_rfl here free
      obtain ⟨d, body, rfl, -⟩ := exists_start written
      refine ⟨gap, d :: body, ?_, List.cons_ne_nil _ _, trivial, written⟩
      rw [same, List.append_assoc]

private theorem seen_complete (s : List Char) :
    seen id (complete s) = (taken (value s)).bind fun found =>
      (left (trivia found.2)).bind fun t => if t = [] then some found.1 else none := by
  rw [complete]
  refine seen_bind fun found => ?_
  refine seen_bind fun t => ?_
  obtain ⟨_ | ⟨c, r⟩, inside⟩ := t
  · rfl
  · rfl

end Reader

open Grammar

private theorem parse_eq_ok_iff {text : String} {literal : Literal} :
    parse text = .ok literal ↔ Reader.seen id (Reader.complete text.toList) = some literal := by
  rw [parse, Reader.seen]
  cases Reader.complete text.toList with
  | error failure => simp [Except.mapError, Except.toOption]
  | ok found => simp [Except.mapError, Except.toOption]

theorem parse_eq_ok_iff_value {text : String} {literal : Literal} :
    parse text = .ok literal ↔
      ∃ rest, Reader.taken (Reader.value text.toList) = some (literal, rest) ∧
        Reader.left (Reader.trivia rest) = some [] := by
  rw [parse_eq_ok_iff, Reader.seen_complete]
  constructor
  · intro read
    obtain ⟨⟨found, rest⟩, valueRead, read⟩ := Option.bind_eq_some_iff.1 read
    obtain ⟨t, ending, read⟩ := Option.bind_eq_some_iff.1 read
    split at read
    · next all =>
      cases read
      exact ⟨rest, valueRead, all ▸ ending⟩
    · cases read
  · rintro ⟨rest, valueRead, ending⟩
    rw [valueRead, Option.bind_some, ending]
    rfl

theorem parse_of_value {word : List Char} {literal : Literal} (written : Value word literal) :
    parse (String.ofList word) = .ok literal := by
  refine parse_eq_ok_iff_value.2 ⟨[], ?_, Reader.left_trivia_nil⟩
  have read := Reader.taken_value_append (Reader.ready _) .nil written le_rfl
    (.ending (.trivia .nil))
  rwa [List.nil_append, List.append_nil, ← String.toList_ofList (l := word)] at read

/-- A text is read as a literal that holds no function exactly where the grammar derives the
literal from the text. -/
theorem parse_eq_ok_iff_text (text : String) (literal : Literal) :
    parse text = .ok literal ∧ CallbackFree literal ↔ Grammar.Text text.toList literal := by
  rw [parse_eq_ok_iff_value]
  constructor
  · rintro ⟨⟨rest, valueRead, ending⟩, free⟩
    obtain ⟨gap, word, same, -, trivial, written⟩ := Reader.readsOnly _ le_rfl valueRead free
    rw [same]
    exact .mk trivial written (Reader.ending_of_left_trivia ending)
  · generalize text.toList = s
    rintro ⟨trivial, written, ending⟩
    refine ⟨⟨_, Reader.taken_value_append (Reader.ready _) trivial written le_rfl (.ending ending),
      Reader.left_trivia_ending ending⟩, written.callbackFree⟩

end CommandReference.Literal
