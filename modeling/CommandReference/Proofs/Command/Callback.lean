import CommandReference.Command.OfLiteral
import CommandReference.Proofs.Literal.Replacement

/-! Functions in argument declarations. A function stands for the value of a field exactly as
`null` does, and what is declared does not change with it, unless the field is one that
arguments are declared by. -/
namespace CommandReference

/-- Literals that differ inside objects at most. -/
inductive Alike : Literal → Literal → Prop where
  | refl (literal : Literal) : Alike literal literal
  | object (fields fields' : List (String × Literal)) : Alike (.object fields) (.object fields')
  | array {a b : Literal} (before after : List Literal) : Alike a b →
      Alike (.array (before ++ a :: after)) (.array (before ++ b :: after))
  | call {a b : Literal} (callee : String) (before after : List Literal) : Alike a b →
      Alike (.call callee (before ++ a :: after)) (.call callee (before ++ b :: after))

namespace Alike
open Argument
variable {a b : Literal}

private theorem kind_eq (alike : Alike a b) : a.kind = b.kind := by
  cases alike with
  | refl _ => rfl
  | object _ _ => rfl
  | array _ _ _ => rfl
  | call _ _ _ _ => rfl

theorem text?_eq (alike : Alike a b) : a.text? = b.text? := by
  cases alike with
  | refl _ => rfl
  | object _ _ => rfl
  | array _ _ _ => rfl
  | call _ _ _ _ => rfl

theorem mapM_eq {α : Type} {f : Literal → Except FieldError α} (same : f a = f b)
    (before after : List Literal) :
    (before ++ a :: after).mapM f = (before ++ b :: after).mapM f := by
  rw [List.mapM_append, List.mapM_append, List.mapM_cons, List.mapM_cons, same]

private theorem typeTagOf_eq (alike : Alike a b) : typeTagOf a = typeTagOf b := by
  cases alike with
  | refl _ => rfl
  | object _ _ => rfl
  | array _ _ _ => rfl
  | call _ _ _ _ => rfl

private theorem typeTagsOf_eq (alike : Alike a b) : typeTagsOf a = typeTagsOf b := by
  cases alike with
  | refl _ => rfl
  | object _ _ => rfl
  | array before after alike => exact mapM_eq alike.typeTagOf_eq before after
  | call _ _ _ _ => rfl

theorem choiceOfParts_eq (alike : Alike a b) (before after : List Literal) :
    choiceOfParts (before ++ a :: after) = choiceOfParts (before ++ b :: after) := by
  have texts : (before ++ a :: after).map Literal.text? = (before ++ b :: after).map Literal.text? := by
    rw [List.map_append, List.map_append, List.map_cons, List.map_cons, alike.text?_eq]
  have part (parts : List Literal) (index : Nat) :
      parts[index]?.bind Literal.text? = (parts.map Literal.text?)[index]?.bind id := by
    rw [List.getElem?_map, Option.bind_map]
    rfl
  rw [choiceOfParts, choiceOfParts, List.head?_eq_getElem?, List.head?_eq_getElem?, part, part,
    part, part, texts]

private theorem choiceOf_eq (alike : Alike a b) : choiceOf a = choiceOf b := by
  cases alike with
  | refl _ => rfl
  | object _ _ => rfl
  | array before after alike => exact alike.choiceOfParts_eq before after
  | call _ before after alike => exact alike.choiceOfParts_eq before after

private theorem choicesOf_eq (alike : Alike a b) : choicesOf a = choicesOf b := by
  cases alike with
  | refl _ => rfl
  | object _ _ => rfl
  | array before after alike => exact mapM_eq alike.choiceOf_eq before after
  | call _ _ _ _ => rfl

theorem textOf_eq (alike : Alike a b) (key : String) : textOf key a = textOf key b := by
  rw [textOf, textOf, alike.text?_eq, alike.kind_eq]

theorem boolOf_eq (alike : Alike a b) (key : String) : boolOf key a = boolOf key b := by
  cases alike with
  | refl _ => rfl
  | object _ _ => rfl
  | array _ _ _ => rfl
  | call _ _ _ _ => rfl

private theorem defaultOf_eq (alike : Alike a b) : defaultOf a = defaultOf b := by
  cases alike with
  | refl _ => rfl
  | object _ _ => rfl
  | array _ _ _ => rfl
  | call _ _ _ _ => rfl

private theorem setField_eq (alike : Alike a b) (argument : Argument) (key : String) :
    argument.setField key a = argument.setField key b := by
  unfold setField
  split
  · rw [alike.textOf_eq]
  · rw [alike.textOf_eq]
  · rw [alike.typeTagsOf_eq]
  · rw [alike.boolOf_eq]
  · rw [alike.boolOf_eq]
  · rw [alike.defaultOf_eq]
  · rw [alike.choicesOf_eq]
  · rfl

end Alike

theorem exists_of_getElem? {α : Type} {items : List α} {index : Nat} {item : α}
    (found : items[index]? = some item) :
    ∃ before after, items = before ++ item :: after ∧ before.length = index := by
  obtain ⟨bound, rfl⟩ := List.getElem?_eq_some_iff.1 found
  refine ⟨items.take index, items.drop (index + 1), ?_, List.length_take_of_le bound.le⟩
  rw [List.getElem_cons_drop, List.take_append_drop]

namespace Literal

theorem exists_of_at?_field {index : Nat} {key : String} {steps : List Step}
    {literal found : Literal} (leads : at? (.field index key :: steps) literal = some found) :
    ∃ before content after, literal = object (before ++ (key, content) :: after) ∧
      before.length = index ∧ at? steps content = some found := by
  cases literal with
  | object fields =>
    obtain ⟨⟨name, content⟩, entry, inner⟩ := Option.bind_eq_some_iff.1 leads
    dsimp only at inner
    split at inner
    · next same =>
      obtain ⟨before, after, rfl, length⟩ := exists_of_getElem? entry
      exact ⟨before, content, after, by rw [same], length, inner⟩
    · cases inner
  | _ => cases leads

theorem exists_of_at?_item {index : Nat} {steps : List Step} {literal found : Literal}
    (leads : at? (.item index :: steps) literal = some found) :
    ∃ whole before content after, literal = whole (before ++ content :: after) ∧
      before.length = index ∧ (whole = array ∨ ∃ callee, whole = call callee) ∧
      at? steps content = some found := by
  cases literal with
  | array items =>
    obtain ⟨content, entry, inner⟩ := Option.bind_eq_some_iff.1 leads
    obtain ⟨before, after, rfl, length⟩ := exists_of_getElem? entry
    exact ⟨array, before, content, after, rfl, length, .inl rfl, inner⟩
  | call callee items =>
    obtain ⟨content, entry, inner⟩ := Option.bind_eq_some_iff.1 leads
    obtain ⟨before, after, rfl, length⟩ := exists_of_getElem? entry
    exact ⟨call callee, before, content, after, rfl, length, .inr ⟨callee, rfl⟩, inner⟩
  | _ => cases leads

/-- A field of an object is out of sight from outside the object. -/
theorem alike_replaceAt {steps : List Step} {index : Nat} {key : String} {literal old : Literal}
    (found : at? (steps ++ [.field index key]) literal = some old) (new : Literal) :
    Alike literal (replaceAt new (steps ++ [.field index key]) literal) := by
  induction steps generalizing literal with
  | nil =>
    obtain ⟨before, content, after, rfl, -, -⟩ := exists_of_at?_field found
    exact .object _ _
  | cons step steps ih =>
    cases step with
    | field _ _ =>
      obtain ⟨before, content, after, rfl, -, -⟩ := exists_of_at?_field found
      exact .object _ _
    | item _ =>
      obtain ⟨whole, before, content, after, rfl, rfl, kind, inner⟩ := exists_of_at?_item found
      have alike := ih inner
      rw [List.cons_append, Reader.replaceAt_whole kind, modify_append_cons]
      rcases kind with rfl | ⟨callee, rfl⟩
      · exact .array before after alike
      · exact .call callee before after alike

end Literal

namespace Argument
open Literal

/-- The keys of the fields that declare something. -/
def knownKeys : List String :=
  ["name", "description", "typeList", "isRequired", "acceptsMultiple", "defaultValue", "enumList"]

theorem setField_of_notMem {key : String} (unknown : key ∉ knownKeys) (argument : Argument)
    (literal : Literal) : argument.setField key literal = .ok argument := by
  simp only [knownKeys, List.mem_cons, List.not_mem_nil, or_false, not_or] at unknown
  obtain ⟨name, description, typeList, isRequired, acceptsMultiple, defaultValue, enumList⟩ :=
    unknown
  rw [setField]
  · rfl
  all_goals assumption

theorem ofLiteral_field_eq {key : String} {a b : Literal}
    (same : ∀ argument : Argument, argument.setField key a = argument.setField key b)
    (before after : List (String × Literal)) :
    ofLiteral (.object (before ++ (key, a) :: after)) =
      ofLiteral (.object (before ++ (key, b) :: after)) := by
  simp only [ofLiteral, List.foldlM_append, List.foldlM_cons, same]

/-- What is declared does not depend on a field that declares nothing, nor on a field further
inside. -/
theorem ofLiteral_replaceAt {steps : List Step} {index : Nat} {key : String}
    {literal old : Literal} (found : at? (steps ++ [.field index key]) literal = some old)
    (unread : steps = [] → key ∉ knownKeys) (new : Literal) :
    ofLiteral (replaceAt new (steps ++ [.field index key]) literal) = ofLiteral literal := by
  cases steps with
  | nil =>
    obtain ⟨before, content, after, rfl, rfl, -⟩ := exists_of_at?_field found
    have unknown := unread rfl
    rw [List.nil_append, replaceAt, modify_append_cons]
    refine ofLiteral_field_eq (fun argument => ?_) before after
    exact (setField_of_notMem unknown argument _).trans (setField_of_notMem unknown argument _).symm
  | cons step steps =>
    cases step with
    | field _ _ =>
      obtain ⟨before, content, after, rfl, rfl, inner⟩ := exists_of_at?_field found
      rw [List.cons_append, replaceAt, modify_append_cons]
      refine ofLiteral_field_eq (fun argument => ?_) before after
      exact ((alike_replaceAt inner new).setField_eq argument _).symm
    | item _ =>
      obtain ⟨whole, before, content, after, rfl, rfl, kind, -⟩ := exists_of_at?_item found
      rw [List.cons_append, Reader.replaceAt_whole kind]
      rcases kind with rfl | ⟨callee, rfl⟩
      · rfl
      · rfl

end Argument

namespace Literal
open Reader Grammar

/-- A function is passed over exactly: in the place of a `null` that is the whole value of a
field it changes the literal that is read at that place only, and unless the field is one of
the outermost object that declares something, it does not change what is declared. -/
theorem parse_functionText {before code after : List Char} {steps : List Step} {index : Nat}
    {key : String} {literal : Literal} (function : FunctionText code)
    (mark : after.head? = some ',' ∨ after.head? = some '}')
    (reached : Reaches (before ++ ("null".toList ++ after)) (steps ++ [.field index key])
      ("null".toList ++ after))
    (read : parse (String.ofList (before ++ ("null".toList ++ after))) = .ok literal) :
    at? (steps ++ [.field index key]) literal = some .null ∧
      parse (String.ofList (before ++ (code ++ after))) =
        .ok (replaceAt .callback (steps ++ [.field index key]) literal) ∧
      ((steps = [] → key ∉ Argument.knownKeys) →
        Argument.ofLiteral (replaceAt .callback (steps ++ [.field index key]) literal) =
          Argument.ofLiteral literal) := by
  obtain ⟨m, r, rfl, ends⟩ : ∃ m r, after = m :: r ∧ EndsCode m := by
    rcases mark with comma | brace
    · obtain ⟨r, rfl⟩ := List.head?_eq_some_iff.1 comma
      exact ⟨',', r, rfl, .inr rfl⟩
    · obtain ⟨r, rfl⟩ := List.head?_eq_some_iff.1 brace
      exact ⟨'}', r, rfl, .inl rfl⟩
  have null : wordFrom ("null".toList ++ m :: r) = some (.null, m :: r) :=
    wordFrom_append .null (.mark .nil ends.mem)
  obtain ⟨rest, valueRead, ending⟩ := parse_eq_ok_iff_value.1 read
  rw [String.toList_ofList] at valueRead
  obtain ⟨found, front, same, replaced⟩ :=
    reached.replace null (wordFrom_functionText function ends r) valueRead
  cases List.append_cancel_right same
  refine ⟨found, parse_eq_ok_iff_value.2 ⟨rest, ?_, ending⟩, fun unread => ?_⟩
  · rw [String.toList_ofList]
    exact replaced
  · exact Argument.ofLiteral_replaceAt found unread .callback

/-- A function with a comma between brackets and a brace in a string. -/
theorem functionText_async : FunctionText "async(x,y)=>'\x7d'".toList := by
  have plain {depth : Nat} {c : Char} {later : List Char} (plain : IsPlain c ∧ c ≠ '/')
      (code : Code depth later) : Code depth (c :: later) :=
    .plain plain.1 (fun slash => absurd slash plain.2) code
  have string : Code 0 "'\x7d'".toList :=
    @Code.string 0 '\'' ['}'] ['}'] [] (.inl rfl) (.cons (.plain (by decide)) .nil) .nil
  have parameters : Code 0 ("(x,y)".toList ++ ('=' :: '>' :: "'\x7d'".toList)) :=
    .opening rfl (plain (by decide) (.comma (plain (by decide) (.closing rfl
      (plain (by decide) (plain (by decide) string))))))
  refine @FunctionText.announced "async".toList "(x,y)=>'\x7d'".toList (by decide) ?_ ?_
  · intro c first
    cases first
    decide +kernel
  · exact plain (by decide) (plain (by decide) (plain (by decide) (plain (by decide)
      (plain (by decide) parameters))))

theorem key_letter {c : Char} (start : isIdentifierStart c = true) : Key [c] [c] :=
  .identifier start (List.forall_mem_nil _)

private theorem reaches_nested :
    Reaches ("\x7be:[\x7bg:".toList ++ ("null".toList ++ "\x7d]\x7d".toList))
      ([.field 0 "e", .item 0] ++ [.field 0 "g"]) ("null".toList ++ "\x7d]\x7d".toList) := by
  have inner : Reaches ("\x7bg:".toList ++ ("null".toList ++ "\x7d]\x7d".toList))
      [.field 0 "g"] ("null".toList ++ "\x7d]\x7d".toList) :=
    @Reaches.field [] _ [] ['g'] ['g'] [] _ _ [] [] .nil .here .nil (key_letter (by decide +kernel))
      .nil (.here .nil)
  have middle := @Reaches.item [] ['['] _ _ _ [] _ .nil .array .here inner
  exact @Reaches.field [] _ [] ['e'] ['e'] [] _ _ [] _ .nil .here .nil
    (key_letter (by decide +kernel)) .nil middle

private theorem value_nested : Value "\x7be:[\x7bg:null\x7d]\x7d".toList
    (.object [("e", .array [.object [("g", .null)]])]) := by
  have single {word : List Char} {α : Type} {Item : List Char → α → Prop} {item : α}
      (held : Item word item) : Separated Item ([] ++ word ++ []) [item] := .last .nil held .nil
  have field {c : Char} (start : isIdentifierStart c = true) {word : List Char} {content : Literal}
      (held : Value word content) :
      Field Value ([c] ++ [] ++ ':' :: [] ++ word) (String.ofList [c], content) :=
    .mk (key_letter start) .nil .nil held
  have inner : Value "\x7bg:null\x7d".toList (.object [("g", .null)]) :=
    .object (single (field (by decide +kernel) .null))
  have middle : Value "[\x7bg:null\x7d]".toList (.array [.object [("g", .null)]]) :=
    .array (single inner)
  exact .object (single (field (by decide +kernel) middle))

theorem parse_functionText_nested :
    parse (String.ofList
      ("\x7be:[\x7bg:".toList ++ ("async(x,y)=>'\x7d'".toList ++ "\x7d]\x7d".toList))) =
      .ok (.object [("e", .array [.object [("g", .callback)]])]) := by
  have read : parse (String.ofList
      ("\x7be:[\x7bg:".toList ++ ("null".toList ++ "\x7d]\x7d".toList))) =
      .ok (.object [("e", .array [.object [("g", .null)]])]) := parse_of_value value_nested
  exact (parse_functionText functionText_async (.inr rfl) reaches_nested read).2.1

end Literal

end CommandReference
