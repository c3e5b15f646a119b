import CommandReference.Json.Printer
import CommandReference.Json.Reader
import Mathlib.Data.List.Basic

/-! JSON text is read back as the value that it was printed from. Each reader is told by
what it takes from a text with a given rest, blanks before it included, so that the layout
of the printer, which lies between tokens only, drops out at the tokens. -/
namespace CommandReference.Json

/-- Values without numbers. -/
inductive Numberless : Json → Prop
  | null : Numberless null
  | bool (value : Bool) : Numberless (bool value)
  | string (text : String) : Numberless (string text)
  | array {items : List Json} (numberless : ∀ item ∈ items, Numberless item) :
      Numberless (array items)
  | object {entries : List (String × Json)} (numberless : ∀ entry ∈ entries, Numberless entry.2) :
      Numberless (object entries)

namespace Reader
open Text

section Tokens
variable {α : Type} {p : List Char → Prop}

/-- What a reader takes and leaves, without the proof that the rest is an end of the text. -/
abbrev taken (result : Option (α × { r : List Char // p r })) : Option (α × List Char) :=
  result.map (Prod.map id Subtype.val)

abbrev left (result : Option { r : List Char // p r }) : Option (List Char) :=
  result.map Subtype.val

theorem exists_of_left {result : Option { r : List Char // p r }} {rest : List Char}
    (read : left result = some rest) : ∃ inside, result = some ⟨rest, inside⟩ := by
  obtain ⟨⟨rest', inside⟩, same, split⟩ := Option.map_eq_some_iff.1 read
  cases split
  exact ⟨inside, same⟩

theorem exists_of_taken {result : Option (α × { r : List Char // p r })} {a : α}
    {rest : List Char} (read : taken result = some (a, rest)) :
    ∃ inside, result = some (a, ⟨rest, inside⟩) := by
  obtain ⟨⟨b, rest', inside⟩, same, split⟩ := Option.map_eq_some_iff.1 read
  cases split
  exact ⟨inside, same⟩

end Tokens

variable {blanks : List Char} {c : Char}

theorem taken_next? (blank : ∀ b ∈ blanks, isBlank b = true) (solid : isBlank c = false)
    (rest : List Char) : taken (next? (blanks ++ c :: rest)) = some (c, rest) := by
  have passed : (blanks ++ c :: rest).dropWhile isBlank = c :: rest := by
    rw [List.dropWhile_append_of_pos blank, List.dropWhile_cons_of_neg (by simp [solid])]
  have split : ∀ t : Rest (blanks ++ c :: rest), t.1 = c :: rest →
      taken t.uncons? = some (c, rest) := by
    rintro ⟨t, inside⟩ rfl
    rfl
  exact split (Rest.pastWhile isBlank _) passed

theorem left_expect? (blank : ∀ b ∈ blanks, isBlank b = true) (solid : isBlank c = false)
    (rest : List Char) : left (expect? c (blanks ++ c :: rest)) = some rest := by
  obtain ⟨inside, read⟩ := exists_of_taken (taken_next? blank solid rest)
  rw [expect?, read]
  exact congrArg left (if_pos rfl)

theorem expect?_of_ne {wanted : Char} (blank : ∀ b ∈ blanks, isBlank b = true)
    (solid : isBlank c = false) (other : c ≠ wanted) (rest : List Char) :
    expect? wanted (blanks ++ c :: rest) = none := by
  obtain ⟨inside, read⟩ := exists_of_taken (taken_next? blank solid rest)
  rw [expect?, read]
  exact if_neg other

theorem hexDigit?_hexDigit : ∀ n < 16, hexDigit? (hexDigit 'a' n) = some n := by decide

private theorem unit?_control {n : Nat} (small : n < 0x20) (s : List Char) :
    escape?.unit? (['0', '0', hexDigit 'a' (n / 16), hexDigit 'a' (n % 16)] ++ s) = some n := by
  have high := hexDigit?_hexDigit (n / 16) (by omega)
  have low := hexDigit?_hexDigit (n % 16) (by omega)
  have zero : hexDigit? '0' = some 0 := by decide
  have digits : n / 16 < 16 ∧ n % 16 < 16 ∧ 16 * (n / 16) + n % 16 = n := by omega
  simp [escape?.unit?, digits?, zero, high, low, digits]

/-- A character is written as a letter, by its code, or as it is. -/
theorem escapeChar_cases (c : Char) :
    (∃ letter, escapes.lookup letter = some c ∧ escapeChar c = ['\\', letter]) ∨
    (c.toNat < 0x20 ∧
      escapeChar c =
        '\\' :: 'u' :: ['0', '0', hexDigit 'a' (c.toNat / 16), hexDigit 'a' (c.toNat % 16)]) ∨
    (¬ c.toNat < 0x20 ∧ c ≠ '"' ∧ c ≠ '\\' ∧ escapeChar c = [c]) := by
  fun_cases escapeChar c with
  | case1 same => exact .inl ⟨'"', congrArg some same.symm, rfl⟩
  | case2 _ same => exact .inl ⟨'\\', congrArg some same.symm, rfl⟩
  | case3 _ _ same => exact .inl ⟨'b', congrArg some same.symm, rfl⟩
  | case4 _ _ _ same => exact .inl ⟨'f', congrArg some same.symm, rfl⟩
  | case5 _ _ _ _ same => exact .inl ⟨'n', congrArg some same.symm, rfl⟩
  | case6 _ _ _ _ _ same => exact .inl ⟨'r', congrArg some same.symm, rfl⟩
  | case7 _ _ _ _ _ _ same => exact .inl ⟨'t', congrArg some same.symm, rfl⟩
  | case8 _ _ _ _ _ _ _ control => exact .inr (.inl ⟨control, rfl⟩)
  | case9 quote backslash _ _ _ _ _ plain =>
    exact .inr (.inr ⟨plain, quote, backslash, rfl⟩)

private theorem taken_escape?_letter {letter c : Char} (found : escapes.lookup letter = some c)
    (s : List Char) : taken (escape? (letter :: s)) = some (c, s) := by
  rw [escape?, found]
  · rfl
  · rintro rfl
    have missing : escapes.lookup 'u' = none := rfl
    cases missing.symm.trans found

private theorem taken_escape?_control {c : Char} (control : c.toNat < 0x20) (s : List Char) :
    taken (escape? ('u' ::
      ['0', '0', hexDigit 'a' (c.toNat / 16), hexDigit 'a' (c.toNat % 16)] ++ s)) =
      some (c, s) := by
  have valid : c.toNat.isValidChar := c.valid
  rw [List.cons_append, escape?, unit?_control control]
  simp [valid, Rest.behind, Rest.drop, ProperRest.andThen]

theorem taken_text?_escape {c : Char} {s t : List Char} (read : taken (escape? s) = some (c, t)) :
    taken (text? ('\\' :: s)) = (taken (text? t)).map (Prod.map (c :: ·) id) := by
  obtain ⟨inside, read⟩ := exists_of_taken read
  rw [text?, read]
  simp only [Option.bind_eq_bind, Option.bind_some]
  cases text? t with
  | none => rfl
  | some result => rfl

private theorem taken_text?_plain {c : Char} (plain : ¬ c.toNat < 0x20) (quote : c ≠ '"')
    (backslash : c ≠ '\\') (s : List Char) :
    taken (text? (c :: s)) = (taken (text? s)).map (Prod.map (c :: ·) id) := by
  rw [text?, if_neg plain]
  · cases text? s with
    | none => rfl
    | some result => rfl
  · exact quote
  · exact backslash

private theorem taken_text?_escapeChar (c : Char) (s : List Char) :
    taken (text? (escapeChar c ++ s)) = (taken (text? s)).map (Prod.map (c :: ·) id) := by
  rcases escapeChar_cases c with ⟨letter, found, written⟩ | ⟨control, written⟩ |
    ⟨plain, quote, backslash, written⟩
  · rw [written]
    exact taken_text?_escape (taken_escape?_letter found s)
  · rw [written]
    exact taken_text?_escape (taken_escape?_control control s)
  · rw [written]
    exact taken_text?_plain plain quote backslash s

theorem taken_text?_quoted (text rest : List Char) :
    taken (text? (text.flatMap escapeChar ++ '"' :: rest)) = some (text, rest) := by
  induction text with
  | nil =>
    rw [List.flatMap_nil, List.nil_append, text?]
    rfl
  | cons c text ih =>
    rw [List.flatMap_cons, List.append_assoc, taken_text?_escapeChar, ih]
    rfl

theorem isBlank_newLine (level : Nat) : ∀ b ∈ newLine level, isBlank b = true := by
  intro b inside
  rcases List.mem_cons.1 inside with rfl | inside
  · rfl
  · rw [(List.mem_replicate.1 inside).2]
    rfl

private theorem intercalate_cons (between part : List Char) (parts : List (List Char)) :
    List.intercalate between (part :: parts) = part ++ parts.flatMap (between ++ ·) := by
  induction parts generalizing part with
  | nil => simp [List.intercalate]
  | cons next parts ih =>
    rw [List.intercalate_cons_cons, ih, List.flatMap_cons, List.append_assoc part,
      List.append_assoc between]

/-- The parts after the first one, and the closing bracket. -/
def following (closing : Char) (level : Nat) (parts : List (List Char)) (rest : List Char) :
    List Char :=
  parts.flatMap (fun part => ',' :: newLine (level + 1) ++ part) ++ (newLine level ++ closing :: rest)

theorem following_cons (closing : Char) (level : Nat) (part : List Char)
    (parts : List (List Char)) (rest : List Char) :
    following closing level (part :: parts) rest =
      ',' :: (newLine (level + 1) ++ (part ++ following closing level parts rest)) := by
  simp [following]

theorem bracketed_cons_append (opening closing : Char) (level : Nat) (part : List Char)
    (parts : List (List Char)) (rest : List Char) :
    bracketed opening closing level (part :: parts) ++ rest =
      opening :: (newLine (level + 1) ++ (part ++ following closing level parts rest)) := by
  simp [bracketed, following, intercalate_cons]

/-- Values begin at a character that is no blank and ends nothing. -/
theorem exists_print_eq_cons {json : Json} (numberless : Numberless json) (level : Nat) :
    ∃ c later, print level json = c :: later ∧ isBlank c = false ∧ c ≠ ']' := by
  cases numberless with
  | null => exact ⟨'n', _, rfl, by decide, by decide⟩
  | bool value =>
    cases value with
    | false => exact ⟨'f', _, rfl, by decide, by decide⟩
    | true => exact ⟨'t', _, rfl, by decide, by decide⟩
  | string text => exact ⟨'"', _, rfl, by decide, by decide⟩
  | @array items _ =>
    cases items with
    | nil => exact ⟨'[', _, rfl, by decide, by decide⟩
    | cons item items => exact ⟨'[', _, rfl, by decide, by decide⟩
  | @object entries _ =>
    cases entries with
    | nil => exact ⟨'\x7b', _, rfl, by decide, by decide⟩
    | cons entry entries => exact ⟨'\x7b', _, rfl, by decide, by decide⟩

/-- A value is read from its text wherever that stands after blanks. -/
def ReadBack (json : Json) : Prop :=
  ∀ level blanks rest, (∀ b ∈ blanks, isBlank b = true) →
    taken (value? (blanks ++ (print level json ++ rest))) = some (json, rest)

theorem left_itemStart?_first (s : List Char) : left (itemStart? true s) = some s := rfl

theorem left_itemStart?_comma (s : List Char) : left (itemStart? false (',' :: s)) = some s := by
  have passed : left (expect? ',' (',' :: s)) = some s := left_expect? (List.forall_mem_nil _) rfl s
  rw [itemStart?, if_neg Bool.false_ne_true, left, Option.map_map]
  exact passed

theorem taken_items?_nil {isFirst : Bool} {s rest : List Char}
    (closed : left (expect? ']' s) = some rest) : taken (items? isFirst s) = some ([], rest) := by
  obtain ⟨inside, closed⟩ := exists_of_left closed
  rw [items?, closed]
  rfl

theorem taken_items?_cons {isFirst : Bool} {s t u : List Char} {item : Json}
    (unclosed : expect? ']' s = none) (start : left (itemStart? isFirst s) = some t)
    (read : taken (value? t) = some (item, u)) :
    taken (items? isFirst s) = (taken (items? false u)).map (Prod.map (item :: ·) id) := by
  obtain ⟨before, start⟩ := exists_of_left start
  obtain ⟨inside, read⟩ := exists_of_taken read
  rw [items?, unclosed, start]
  simp only [read, Option.bind_eq_bind, Option.bind_some]
  cases items? false u with
  | none => rfl
  | some result => rfl

private theorem taken_items?_following {items : List Json} (back : ∀ item ∈ items, ReadBack item)
    (level : Nat) (rest : List Char) :
    taken (items? false (following ']' level (printItems (level + 1) items) rest)) =
      some (items, rest) := by
  induction items with
  | nil => exact taken_items?_nil (left_expect? (isBlank_newLine level) rfl rest)
  | cons item items ih =>
    have unclosed (s : List Char) : expect? ']' (',' :: s) = none :=
      expect?_of_ne (List.forall_mem_nil _) rfl (by decide) s
    have ⟨first, others⟩ := List.forall_mem_cons.1 back
    rw [printItems, following_cons, taken_items?_cons (unclosed _) (left_itemStart?_comma _)
      (first (level + 1) (newLine (level + 1)) _ (isBlank_newLine (level + 1))), ih others]
    rfl

private theorem taken_items?_print {items : List Json}
    (numberless : ∀ item ∈ items, Numberless item)
    (back : ∀ item ∈ items, ReadBack item) (level : Nat) (rest : List Char) :
    ∃ s, bracketed '[' ']' level (printItems (level + 1) items) ++ rest = '[' :: s ∧
      taken (items? true s) = some (items, rest) := by
  cases items with
  | nil =>
    refine ⟨']' :: rest, rfl, taken_items?_nil ?_⟩
    exact left_expect? (List.forall_mem_nil _) rfl rest
  | cons item items =>
    have ⟨first, others⟩ := List.forall_mem_cons.1 back
    refine ⟨_, bracketed_cons_append _ _ level _ _ rest, ?_⟩
    obtain ⟨c, later, same, solid, other⟩ :=
      exists_print_eq_cons (numberless item List.mem_cons_self) (level + 1)
    have unclosed (s : List Char) :
        expect? ']' (newLine (level + 1) ++ (print (level + 1) item ++ s)) = none := by
      rw [same]
      exact expect?_of_ne (isBlank_newLine (level + 1)) solid other _
    rw [taken_items?_cons (unclosed _) (left_itemStart?_first _)
      (first (level + 1) (newLine (level + 1)) _ (isBlank_newLine (level + 1))),
      taken_items?_following others]
    rfl

theorem taken_entries?_nil {isFirst : Bool} {s rest : List Char}
    (closed : left (expect? '\x7d' s) = some rest) :
    taken (entries? isFirst s) = some ([], rest) := by
  obtain ⟨inside, closed⟩ := exists_of_left closed
  rw [entries?, closed]
  rfl

theorem taken_entries?_cons {isFirst : Bool} {s blanks u : List Char} {key : String}
    {value : Json} {level : Nat} (unclosed : expect? '\x7d' s = none)
    (blank : ∀ b ∈ blanks, isBlank b = true)
    (start : left (itemStart? isFirst s) =
      some (blanks ++ (quote key ++ ": ".toList ++ print level value ++ u)))
    (back : ReadBack value) :
    taken (entries? isFirst s) = (taken (entries? false u)).map (Prod.map ((key, value) :: ·) id) := by
  have quoted : blanks ++ (quote key ++ ": ".toList ++ print level value ++ u) =
      blanks ++ '"' :: (key.toList.flatMap escapeChar ++
        '"' :: ':' :: ([' '] ++ (print level value ++ u))) := by
    simp [quote]
  rw [quoted] at start
  have space : ∀ b ∈ [' '], isBlank b = true := List.forall_mem_singleton.2 rfl
  obtain ⟨before, start⟩ := exists_of_left start
  obtain ⟨opened, opening⟩ := exists_of_left
    (left_expect? (c := '"') blank rfl (key.toList.flatMap escapeChar ++
        '"' :: ':' :: ([' '] ++ (print level value ++ u))))
  obtain ⟨within, text⟩ := exists_of_taken
    (taken_text?_quoted key.toList (':' :: ([' '] ++ (print level value ++ u))))
  have colon : left (expect? ':' (':' :: ([' '] ++ (print level value ++ u)))) = _ :=
    left_expect? (List.forall_mem_nil _) rfl _
  obtain ⟨parted, colon⟩ := exists_of_left colon
  obtain ⟨inside, read⟩ := exists_of_taken (back level [' '] u space)
  rw [entries?, unclosed, start]
  simp only [opening, text, colon, read, Option.bind_eq_bind, Option.bind_some, String.ofList_toList]
  cases entries? false u with
  | none => rfl
  | some result => rfl

private theorem taken_entries?_following {entries : List (String × Json)}
    (back : ∀ entry ∈ entries, ReadBack entry.2) (level : Nat) (rest : List Char) :
    taken (entries? false (following '\x7d' level (printEntries (level + 1) entries) rest)) =
      some (entries, rest) := by
  induction entries with
  | nil => exact taken_entries?_nil (left_expect? (isBlank_newLine level) rfl rest)
  | cons entry entries ih =>
    have unclosed (s : List Char) : expect? '\x7d' (',' :: s) = none :=
      expect?_of_ne (List.forall_mem_nil _) rfl (by decide) s
    have ⟨first, others⟩ := List.forall_mem_cons.1 back
    rw [printEntries, following_cons, taken_entries?_cons (unclosed _)
      (isBlank_newLine (level + 1)) (left_itemStart?_comma _) first, ih others]
    rfl

private theorem taken_entries?_print {entries : List (String × Json)}
    (back : ∀ entry ∈ entries, ReadBack entry.2) (level : Nat) (rest : List Char) :
    ∃ s, bracketed '\x7b' '\x7d' level (printEntries (level + 1) entries) ++ rest = '\x7b' :: s ∧
      taken (entries? true s) = some (entries, rest) := by
  cases entries with
  | nil =>
    refine ⟨'\x7d' :: rest, rfl, taken_entries?_nil ?_⟩
    exact left_expect? (List.forall_mem_nil _) rfl rest
  | cons entry entries =>
    have ⟨first, others⟩ := List.forall_mem_cons.1 back
    refine ⟨_, bracketed_cons_append _ _ level _ _ rest, ?_⟩
    have unclosed (s : List Char) :
        expect? '\x7d' (newLine (level + 1) ++
          (quote entry.1 ++ ": ".toList ++ print (level + 1) entry.2 ++ s)) = none :=
      expect?_of_ne (isBlank_newLine (level + 1)) (c := '"') rfl (by decide) _
    rw [taken_entries?_cons (unclosed _) (isBlank_newLine (level + 1)) (left_itemStart?_first _)
      first, taken_entries?_following others]
    rfl

theorem left_past? (wanted rest : List Char) : left (past? wanted (wanted ++ rest)) = some rest := by
  induction wanted with
  | nil => rfl
  | cons w wanted ih =>
    rw [List.cons_append, past?, if_pos rfl, left, Option.map_map]
    exact ih

section Leading
variable (blank : ∀ b ∈ blanks, isBlank b = true)
include blank

private theorem taken_value?_string (s : List Char) :
    taken (value? (blanks ++ '"' :: s)) =
      (taken (text? s)).map (Prod.map (fun text => string (String.ofList text)) id) := by
  obtain ⟨inside, next⟩ := exists_of_taken (taken_next? (c := '"') blank rfl s)
  rw [value?, next]
  simp only [Option.bind_eq_bind, Option.bind_some, if_pos]
  cases text? s with
  | none => rfl
  | some result => rfl

private theorem taken_value?_array (s : List Char) :
    taken (value? (blanks ++ '[' :: s)) = (taken (items? true s)).map (Prod.map array id) := by
  obtain ⟨inside, next⟩ := exists_of_taken (taken_next? (c := '[') blank rfl s)
  rw [value?, next]
  simp only [Option.bind_eq_bind, Option.bind_some, if_pos]
  cases items? true s with
  | none => rfl
  | some result => rfl

private theorem taken_value?_object (s : List Char) :
    taken (value? (blanks ++ '\x7b' :: s)) =
      (taken (entries? true s)).map (Prod.map object id) := by
  obtain ⟨inside, next⟩ := exists_of_taken (taken_next? (c := '\x7b') blank rfl s)
  rw [value?, next]
  simp only [Option.bind_eq_bind, Option.bind_some, if_pos]
  cases entries? true s with
  | none => rfl
  | some result => rfl

private theorem taken_value?_null (s : List Char) :
    taken (value? (blanks ++ 'n' :: s)) =
      (left (past? ['u', 'l', 'l'] s)).map (null, ·) := by
  obtain ⟨inside, next⟩ := exists_of_taken (taken_next? (c := 'n') blank rfl s)
  rw [value?, next]
  simp only [Option.bind_eq_bind, Option.bind_some, reduceIte, Char.reduceEq]
  cases past? ['u', 'l', 'l'] s with
  | none => rfl
  | some rest => rfl

private theorem taken_value?_true (s : List Char) :
    taken (value? (blanks ++ 't' :: s)) =
      (left (past? ['r', 'u', 'e'] s)).map (bool true, ·) := by
  obtain ⟨inside, next⟩ := exists_of_taken (taken_next? (c := 't') blank rfl s)
  rw [value?, next]
  simp only [Option.bind_eq_bind, Option.bind_some, reduceIte, Char.reduceEq]
  cases past? ['r', 'u', 'e'] s with
  | none => rfl
  | some rest => rfl

private theorem taken_value?_false (s : List Char) :
    taken (value? (blanks ++ 'f' :: s)) =
      (left (past? ['a', 'l', 's', 'e'] s)).map (bool false, ·) := by
  obtain ⟨inside, next⟩ := exists_of_taken (taken_next? (c := 'f') blank rfl s)
  rw [value?, next]
  simp only [Option.bind_eq_bind, Option.bind_some, reduceIte, Char.reduceEq]
  cases past? ['a', 'l', 's', 'e'] s with
  | none => rfl
  | some rest => rfl

end Leading

private theorem readBack_of_numberless {json : Json} (numberless : Numberless json) :
    ReadBack json := by
  induction numberless with
  | null =>
    intro level blanks rest blank
    exact (taken_value?_null blank _).trans (congrArg _ (left_past? ['u', 'l', 'l'] rest))
  | bool value =>
    intro level blanks rest blank
    cases value with
    | true => exact (taken_value?_true blank _).trans (congrArg _ (left_past? ['r', 'u', 'e'] rest))
    | false =>
      exact (taken_value?_false blank _).trans (congrArg _ (left_past? ['a', 'l', 's', 'e'] rest))
  | string text =>
    intro level blanks rest blank
    have quoted : print level (string text) ++ rest =
        '"' :: (text.toList.flatMap escapeChar ++ '"' :: rest) := by
      simp [print, quote]
    rw [quoted, taken_value?_string blank, taken_text?_quoted, Option.map_some]
    simp
  | array numberless back =>
    intro level blanks rest blank
    obtain ⟨s, same, read⟩ := taken_items?_print numberless back level rest
    rw [print, same, taken_value?_array blank, read]
    rfl
  | object numberless back =>
    intro level blanks rest blank
    obtain ⟨s, same, read⟩ := taken_entries?_print back level rest
    rw [print, same, taken_value?_object blank, read]
    rfl

end Reader

/-- The text of a value, with any blanks after it, holds that value. -/
theorem parse?_pretty {json : Json} (numberless : Numberless json) {blanks : String}
    (blank : ∀ b ∈ blanks.toList, Reader.isBlank b = true) :
    parse? (pretty json ++ blanks) = some json := by
  have text : [] ++ (print 0 json ++ blanks.toList) = (pretty json ++ blanks).toList := by
    simp [pretty]
  have read := Reader.readBack_of_numberless numberless 0 [] blanks.toList (List.forall_mem_nil _)
  rw [text] at read
  obtain ⟨inside, read⟩ := Reader.exists_of_taken read
  rw [parse?, read]
  exact if_pos (List.all_eq_true.2 blank)

end CommandReference.Json
