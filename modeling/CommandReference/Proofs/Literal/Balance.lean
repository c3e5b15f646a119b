import CommandReference.Proofs.Literal.Spacing

/-! The braces of a literal balance, so the block at the start of a line is the literal that
stands there. -/
namespace CommandReference.Literal
open CommandReference.Text Reader Grammar

/-- A text whose braces balance outside of strings, all of which are closed. -/
inductive Balanced : List Char → Prop where
  | nil : Balanced []
  | plain {c : Char} : c ∉ ['{', '}'] → opensString c = false → Balanced [c]
  | string {quote : Char} {body : List Char} : opensString quote = true → Inert quote body →
      Balanced (quote :: body ++ [quote])
  | braces {body : List Char} : Balanced body → Balanced ('{' :: body ++ ['}'])
  | append {first second : List Char} : Balanced first → Balanced second →
      Balanced (first ++ second)

section Steps
variable (depth : Nat) (s : List Char)

theorem balancedFrom_open :
    balancedFrom .outside depth ('{' :: s) = (balancedFrom .outside (depth + 1) s).map ('{' :: ·) := by
  rw [balancedFrom.eq_def]
  exact if_pos ⟨rfl, rfl⟩

theorem balancedFrom_close :
    balancedFrom .outside (depth + 2) ('}' :: s) =
      (balancedFrom .outside (depth + 1) s).map ('}' :: ·) := by
  rw [balancedFrom.eq_def]
  exact (if_neg (by decide)).trans (if_pos ⟨rfl, rfl⟩)

theorem balancedFrom_last : balancedFrom .outside 1 ('}' :: s) = some ['}'] := by
  rw [balancedFrom.eq_def]
  exact (if_neg (by decide)).trans (if_pos ⟨rfl, rfl⟩)

theorem balancedFrom_next {place : Place} {c : Char} (passes : place = .outside → c ∉ ['{', '}']) :
    balancedFrom place depth (c :: s) = (balancedFrom (place.next c) depth s).map (c :: ·) := by
  have opens : ¬ (place = .outside ∧ c = '{') := fun both => passes both.1 (by simp [both.2])
  have closes : ¬ (place = .outside ∧ c = '}') := fun both => passes both.1 (by simp [both.2])
  rw [balancedFrom.eq_def]
  exact (if_neg opens).trans (if_neg closes)

end Steps

private theorem balancedFrom_inert {quote : Char} {body : List Char} (inert : Inert quote body)
    (depth : Nat) (s : List Char) :
    balancedFrom (.inside quote) depth (body ++ s) =
      (balancedFrom (.inside quote) depth s).map (body ++ ·) := by
  induction inert with
  | nil => simp
  | @plain c body other plain _ ih =>
    rw [List.cons_append, balancedFrom_next depth _ (by simp), next_inside other plain, ih,
      Option.map_map]
    rfl
  | @escape c body _ ih =>
    have escaped : Place.next (.inside quote) '\\' = .escaped quote := rfl
    have back : Place.next (.escaped quote) c = .inside quote := rfl
    rw [List.cons_append, balancedFrom_next depth _ (by simp), escaped, List.cons_append,
      balancedFrom_next depth _ (by simp), back, ih, Option.map_map, Option.map_map]
    rfl

/-- A balanced text is passed over. -/
theorem Balanced.balancedFrom_append {word : List Char} (balanced : Balanced word) (depth : Nat)
    (s : List Char) :
    balancedFrom .outside (depth + 1) (word ++ s) =
      (balancedFrom .outside (depth + 1) s).map (word ++ ·) := by
  induction balanced generalizing depth s with
  | nil => simp
  | @plain c other plain =>
    rw [List.singleton_append, balancedFrom_next _ _ fun _ => other, next_outside plain]
    rfl
  | @string quote body opens inert =>
    have other : quote ∉ ['{', '}'] := by
      have all : ∀ quote ∈ ['\'', '"', '`'], quote ∉ ['{', '}'] := forall_mem_of_all (by decide)
      exact all quote (of_decide_eq_true opens)
    rw [List.append_assoc, List.cons_append, balancedFrom_next _ _ fun _ => other, next_opens opens,
      balancedFrom_inert inert, List.singleton_append, balancedFrom_next _ _ (by simp),
      next_quote (slash_of_quote opens)]
    simp [Function.comp_def]
  | @braces body _ ih =>
    rw [List.append_assoc, List.cons_append, balancedFrom_open, ih, List.singleton_append,
      balancedFrom_close]
    simp [Function.comp_def]
  | append _ _ ihFirst ihSecond =>
    rw [List.append_assoc, ihFirst, ihSecond]
    simp [Function.comp_def]

theorem Balanced.balancedBlock? {body : List Char} (balanced : Balanced body) (s : List Char) :
    Literal.balancedBlock? ('{' :: body ++ '}' :: s) = some ('{' :: body ++ ['}']) := by
  rw [Literal.balancedBlock?, List.cons_append, balancedFrom_open, balanced.balancedFrom_append,
    balancedFrom_last]
  rfl

/-- A block is found from its own characters: what follows it does not matter. -/
theorem exists_of_balancedFrom {place : Place} {depth : Nat} {cs block : List Char}
    (found : balancedFrom place depth cs = some block) :
    ∃ rest, cs = block ++ rest ∧ ∀ s, balancedFrom place depth (block ++ s) = some block := by
  fun_induction balancedFrom place depth cs generalizing block with
  | case1 => cases found
  | case2 place depth c cs opens ih =>
    obtain ⟨inner, held, rfl⟩ := Option.map_eq_some_iff.1 found
    obtain ⟨rest, rfl, anywhere⟩ := ih held
    obtain ⟨rfl, rfl⟩ := opens
    refine ⟨rest, rfl, fun s => ?_⟩
    rw [List.cons_append, balancedFrom_open, anywhere]
    rfl
  | case3 => cases found
  | case4 place c cs _ closes =>
    cases found
    obtain ⟨rfl, rfl⟩ := closes
    exact ⟨cs, rfl, balancedFrom_last⟩
  | case5 place c cs _ closes outer some ih =>
    obtain ⟨inner, held, rfl⟩ := Option.map_eq_some_iff.1 found
    obtain ⟨rest, rfl, anywhere⟩ := ih held
    obtain ⟨rfl, rfl⟩ := closes
    obtain ⟨outer, rfl⟩ := Nat.exists_eq_succ_of_ne_zero some
    refine ⟨rest, rfl, fun s => ?_⟩
    rw [List.cons_append, balancedFrom_close, anywhere]
    rfl
  | case6 place depth c cs opens closes ih =>
    obtain ⟨inner, held, rfl⟩ := Option.map_eq_some_iff.1 found
    obtain ⟨rest, rfl, anywhere⟩ := ih held
    have passes : place = .outside → c ∉ ['{', '}'] := by
      intro outside brace
      rcases List.mem_pair.1 brace with rfl | rfl
      · exact opens ⟨outside, rfl⟩
      · exact closes ⟨outside, rfl⟩
    refine ⟨rest, rfl, fun s => ?_⟩
    rw [List.cons_append, balancedFrom_next _ _ passes, anywhere]
    rfl

theorem balancedBlock?_of_isPrefix {part block : List Char}
    (found : Literal.balancedBlock? block = some block) (start : part <+: block)
    (proper : part ≠ block) : Literal.balancedBlock? part = none := by
  cases early : Literal.balancedBlock? part with
  | none => rfl
  | some other =>
    -- A block found early would be found in the whole text too.
    obtain ⟨rest, rfl, anywhere⟩ := exists_of_balancedFrom early
    obtain ⟨more, rfl⟩ := start
    have again := anywhere (rest ++ more)
    rw [List.append_assoc] at found
    have same := List.self_eq_append_right.1 (Option.some.inj (again.symm.trans found))
    rw [(List.append_eq_nil_iff.1 same).2, List.append_nil] at proper
    exact absurd rfl proper

theorem balanced_of_all {word : List Char}
    (passed : ∀ c ∈ word, c ∉ ['{', '}'] ∧ opensString c = false) : Balanced word := by
  induction word with
  | nil => exact .nil
  | cons c word ih =>
    rw [List.forall_mem_cons] at passed
    exact (Balanced.plain passed.1.1 passed.1.2).append (ih passed.2)

theorem balanced_of_blanks {gap : List Char} (blanks : Blanks gap) : Balanced gap := by
  refine balanced_of_all fun c member => ⟨fun brace => ?_, isBlank_cases (blanks c member)⟩
  have braces : ∀ c ∈ ['{', '}'], isBlank c = false := forall_mem_of_all (by decide)
  cases (braces c brace).symm.trans (blanks c member)

theorem Leaf.balanced {word : List Char} (leaf : Leaf word) : Balanced word := by
  cases leaf with
  | word _ parts =>
    refine balanced_of_all fun c member => ⟨fun brace => ?_, part_cases (parts c member)⟩
    have braces : ∀ c ∈ ['{', '}'], isWordPart c = false := forall_mem_of_all (by decide)
    cases (braces c brace).symm.trans (parts c member)
  | string opens inert => exact .string opens inert

theorem Balanced.bracketed {body : List Char} (balanced : Balanced body) {first last : Char}
    (opens : first ∈ ['[', '(']) (closes : last ∈ [']', ')']) :
    Balanced (first :: body ++ [last]) := by
  have all : ∀ c ∈ ['[', '(', ']', ')'], c ∉ ['{', '}'] ∧ opensString c = false :=
    forall_mem_of_all (by decide)
  have ahead := all first (List.mem_append_left [']', ')'] opens)
  have behind := all last (List.mem_append_right ['[', '('] closes)
  exact ((Balanced.plain ahead.1 ahead.2).append balanced).append (.plain behind.1 behind.2)

theorem balanced_of_trivia {gap whole : List Char} (trivial : Trivia gap) (bare : Uncommented whole)
    (inside : gap <:+: whole) : Balanced gap :=
  balanced_of_blanks (blanks_of_trivia trivial (bare.of_infix inside))

theorem Grammar.Separated.balanced {α : Type} {body : List Char} {items : List α}
    (separated : Separated (fun word _ => Balanced word) body items) (bare : Uncommented body) :
    Balanced body := by
  induction separated with
  | nil trivial => exact balanced_of_trivia trivial bare (List.infix_refl _)
  | @last before word after item ahead held behind =>
    have first := balanced_of_trivia ahead bare ⟨[], word ++ after, by simp⟩
    have second := balanced_of_trivia behind bare ⟨before ++ word, [], by simp⟩
    exact (first.append held).append second
  | @cons before word after later item items ahead held behind _ ih =>
    have tail : later <:+: before ++ word ++ after ++ ',' :: later :=
      ⟨before ++ word ++ after ++ [','], [], by simp⟩
    have first := balanced_of_trivia ahead bare ⟨[], word ++ after ++ ',' :: later, by simp⟩
    have second := balanced_of_trivia behind bare ⟨before ++ word, ',' :: later, by simp⟩
    have comma : Balanced [','] := .plain (by decide) (by decide)
    exact ((first.append held).append second).append (comma.append (ih (bare.of_infix tail)))

theorem Grammar.Field.balanced {word : List Char} {field : String × Literal}
    (held : Field (fun word _ => Balanced word) word field) (bare : Uncommented word) :
    Balanced word := by
  cases held with
  | @mk key name before after part value named ahead behind content =>
    have first := balanced_of_trivia ahead bare ⟨key, ':' :: after ++ part, by simp⟩
    have second := balanced_of_trivia behind bare ⟨key ++ before ++ [':'], part, by simp⟩
    have colon : Balanced [':'] := .plain (by decide) (by decide)
    exact (((leaf_of_key named).balanced.append first).append (colon.append second)).append content

private theorem balanced_value {word : List Char} {literal : Literal} (written : Value word literal)
    (still : Static literal) (bare : Uncommented word) : Balanced word := by
  refine static_induction (P := fun word _ => Balanced word) (fun leaf _ => leaf.balanced)
    ?object ?array ?call ?new written still bare
  case object =>
    intro body fields bare separated
    have fieldwise : Separated (fun word _ => Balanced word) body fields :=
      separated.imp fun held _ inside => held.balanced (bare.of_infix inside)
    exact .braces (fieldwise.balanced bare)
  case array =>
    intro body items bare separated
    exact (separated.balanced bare).bracketed (by simp) (by simp)
  case call =>
    intro word gap body items name white bare separated
    rw [List.append_assoc]
    exact ((leaf_of_path name.path).balanced.append (balanced_of_blanks white)).append
      ((separated.balanced bare).bracketed (by simp) (by simp))
  case new =>
    intro gap word after body items white _ named whiteAfter bare separated
    have start := leaf_of_reserved.2.2.2.2.balanced.append (balanced_of_blanks white)
    rw [List.append_assoc]
    exact ((start.append (leaf_of_path named).balanced).append (balanced_of_blanks whiteAfter)).append
      ((separated.balanced bare).bracketed (by simp) (by simp))

private theorem balanced_object {body : List Char} {fields : List (String × Literal)}
    (separated : Separated (Field Value) body fields) (stills : ∀ field ∈ fields, Static field.2)
    (bare : Uncommented body) : Balanced body := by
  have fieldwise : Separated (fun word _ => Balanced word) body fields := by
    refine separated.imp fun held member inside => ?_
    refine (held.imp fun held nested => ?_).balanced (bare.of_infix inside)
    exact balanced_value held (stills _ member) (bare.of_infix (nested.trans inside))
  exact fieldwise.balanced bare

/-- The block with which a text begins is the object that stands there. -/
theorem balancedBlock?_append {word : List Char} {fields : List (String × Literal)}
    (written : Value word (.object fields)) (still : Static (.object fields))
    (bare : Uncommented word) (s : List Char) : Literal.balancedBlock? (word ++ s) = some word := by
  cases written with
  | @object body _ separated =>
    cases still with
    | object stills =>
      have inner := balanced_object separated stills (bare.of_infix ⟨['{'], ['}'], rfl⟩)
      rw [List.append_assoc, List.singleton_append]
      exact inner.balancedBlock? s

theorem Leaf.head?_append {word : List Char} (leaf : Leaf word) (s : List Char) :
    (word ++ s).head? ≠ some '{' := by
  intro brace
  cases leaf with
  | word some parts =>
    obtain ⟨c, later, rfl⟩ := List.exists_cons_of_ne_nil some
    cases brace
    exact absurd (parts '{' List.mem_cons_self) (by decide)
  | string opens _ =>
    cases brace
    exact absurd opens (by decide)

theorem exists_object_of_head? {word : List Char} {literal : Literal} (written : Value word literal)
    (still : Static literal) (bare : Uncommented word) (brace : word.head? = some '{') :
    ∃ fields, literal = .object fields := by
  have begins : word.head? = some '{' → ∃ fields, literal = .object fields := by
    refine static_induction (P := fun word literal => word.head? = some '{' →
      ∃ fields, literal = .object fields) ?leaf ?object ?array ?call ?new written still bare
    case leaf =>
      intro word literal leaf _ brace
      rw [← List.append_nil word] at brace
      exact absurd brace (leaf.head?_append [])
    case object => exact fun _ _ _ => ⟨_, rfl⟩
    case array =>
      intro body items _ _ brace
      cases brace
    case call =>
      intro word gap body items name _ _ _ brace
      rw [List.append_assoc, List.append_assoc] at brace
      exact absurd brace ((leaf_of_path name.path).head?_append _)
    case new =>
      intro gap word after body items _ _ _ _ _ _ brace
      cases brace
  exact begins brace

/-- The block at the start of a text is told by its braces alone: where a text begins with an object
without comments, functions and interpolations, the block found there is this object, and no
beginning of the object that leaves out some of it is one. -/
theorem balancedBlock?_of_parse {text block : String} {literal : Literal}
    (start : block.toList <+: text.toList) (bare : Uncommented block.toList)
    (read : parse block = .ok literal) (opens : block.toList.head? = some '{')
    (closes : block.toList.getLast? = some '}') (still : Static literal) :
    Literal.balancedBlock? text.toList = some block.toList ∧
      (Literal.balancedBlock? text.toList).map byteSize = some (byteSize block.toList) ∧
      ∀ part, part <+: block.toList → part ≠ block.toList → Literal.balancedBlock? part = none := by
  rw [← String.ofList_toList (s := block)] at read
  have written := value_of_parse read still.callbackFree bare (trimmed_of_braces opens closes)
  obtain ⟨fields, rfl⟩ := exists_object_of_head? written still bare opens
  have anywhere := balancedBlock?_append written still bare
  have alone := anywhere []
  rw [List.append_nil] at alone
  obtain ⟨rest, whole⟩ := start
  have found := anywhere rest
  rw [whole] at found
  refine ⟨found, ?_, fun part start proper => balancedBlock?_of_isPrefix alone start proper⟩
  rw [found, Option.map_some]

/-- An object with braces and quotes in its strings. -/
def braced : Literal := .object [("a", .string "'\x7d"), ("b", .template "\x7b" false)]

def bracedText : String := "\x7ba:'\\'\x7d',b:`\x7b`\x7d"

private theorem value_braced : Value bracedText.toList braced := by
  have key {c : Char} (start : isIdentifierStart c = true) : Key [c] [c] :=
    .identifier start (List.forall_mem_nil _)
  have string : Value "'\\'\x7d'".toList (.string "'\x7d") :=
    @Value.string '\'' "\\'\x7d".toList "'\x7d".toList (.inl rfl)
      (.cons (.escape (.itself (by decide))) (.cons (.plain (by decide)) .nil))
  have template : Value "`\x7b`".toList (.template "\x7b" false) :=
    @Value.template "\x7b".toList false (.plain (by decide) (by decide) .nil)
  exact @Value.object "a:'\\'\x7d',b:`\x7b`".toList _
    (@Separated.cons _ _ [] "a:'\\'\x7d'".toList [] _ _ _ .nil
      (@Grammar.Field.mk _ ['a'] ['a'] [] [] _ _ (key (by decide +kernel)) .nil .nil string) .nil
      (@Separated.last _ _ [] _ [] _ .nil
        (@Grammar.Field.mk _ ['b'] ['b'] [] [] _ _ (key (by decide +kernel)) .nil .nil template) .nil))

theorem balancedBlock?_of_parse_braced :
    parse bracedText = .ok braced ∧ Uncommented bracedText.toList ∧ Static braced ∧
      Literal.balancedBlock? (bracedText ++ "\x7d, \x7b").toList = some bracedText.toList ∧
      Literal.balancedBlock? "\x7ba:'\\'\x7d',b:`\x7b`".toList = none := by
  have read : parse bracedText = .ok braced := by
    rw [← String.ofList_toList (s := bracedText)]
    exact parse_of_value value_braced
  have still : Static braced := .object (by simp [Static.string, Static.template])
  have bare : Uncommented bracedText.toList := by decide
  have start : bracedText.toList <+: (bracedText ++ "\x7d, \x7b").toList := by decide
  obtain ⟨found, -, none⟩ := balancedBlock?_of_parse start bare read rfl rfl still
  exact ⟨read, bare, still, found, none _ (by decide) (by decide)⟩

end CommandReference.Literal
