import CommandReference.Proofs.Document.ShownTexts

/-! Lines of named arguments. All that such a line shows of an argument can be told from the line,
as long as no text in it holds the sign by which it ends. The description stands last and may hold
anything. -/
namespace CommandReference
open Text Document

/-- A text is cut in only one way into a run of some class and what does not go on with it. -/
theorem run_unique {α : Type} {p : α → Bool} {first second rest other : List α}
    (inFirst : ∀ c ∈ first, p c = true) (inSecond : ∀ c ∈ second, p c = true)
    (stop : ∀ c ∈ rest.head?, p c = false) (stopOther : ∀ c ∈ other.head?, p c = false)
    (same : first ++ rest = second ++ other) : first = second ∧ rest = other := by
  have runs := congrArg (List.takeWhile p) same
  rw [takeWhile_run inFirst stop, takeWhile_run inSecond stopOther] at runs
  have rests := congrArg (List.dropWhile p) same
  rw [dropWhile_run inFirst stop, dropWhile_run inSecond stopOther] at rests
  exact ⟨runs, rests⟩

theorem before_unique {sign : Char} {first second rest other : List Char} (inFirst : sign ∉ first)
    (inSecond : sign ∉ second) (same : first ++ sign :: rest = second ++ sign :: other) :
    first = second ∧ rest = other := by
  have stop (later : List Char) : ∀ c ∈ (sign :: later).head?, (c != sign) = false := by simp
  have both := run_unique (bne_of_notMem inFirst) (bne_of_notMem inSecond) (stop rest) (stop other) same
  exact ⟨both.1, List.tail_eq_of_cons_eq both.2⟩

private theorem joined_unique {first second : List String} (some : first ≠ [])
    (others : second ≠ [])
    (inFirst : ∀ text ∈ first, '|' ∉ text.toList) (inSecond : ∀ text ∈ second, '|' ∉ text.toList)
    (same : joined "|" first = joined "|" second) : first = second := by
  have split {texts : List String} (some : texts ≠ []) (apart : ∀ text ∈ texts, '|' ∉ text.toList) :
      (joined "|" texts).toList.splitOn '|' = texts.map String.toList := by
    rw [joined, String.toList_intercalate]
    exact List.splitOn_intercalate '|' (List.forall_mem_map.2 apart) (by simpa using some)
  have lists : first.map String.toList = second.map String.toList := by
    rw [← split some inFirst, ← split others inSecond, same]
  exact List.map_injective_iff.2 (fun _ _ => String.toList_injective) lists

namespace Argument

/-- An argument whose texts do not hold the signs by which they end in its line. -/
structure Delimited (argument : Argument) : Prop where
  name : ∀ sign ∈ ['=', ':', ']'], sign ∉ (argument.name.getD "").toList
  choices : ∀ value ∈ argument.choiceValues, ∀ sign ∈ ['|', ']'], sign ∉ value.toList
  types : ∀ shown ∈ argument.typeNames .named, ∀ sign ∈ ['|', ']'], sign ∉ shown.toList
  value : ∀ value ∈ argument.defaultValue, '`' ∉ value.toList

/-- What stands behind the name in the brackets. -/
inductive BehindName (argument : Argument) : List Char → Prop where
  | choices : argument.choices ≠ [] →
      BehindName argument ('=' :: (joined "|" argument.choiceValues).toList)
  | types : argument.choices = [] → argument.typeNames .named ≠ [] →
      BehindName argument (':' :: (joined "|" (argument.typeNames .named)).toList)
  | nothing : argument.choices = [] → argument.typeNames .named = [] → BehindName argument []

theorem exists_behindName (argument : Argument) :
    ∃ behind, BehindName argument behind ∧
      argument.namedShape.toList = (argument.name.getD "").toList ++ behind := by
  rw [namedShape]
  by_cases listed : argument.choices = []
  · rw [if_neg (not_not.2 listed)]
    split
    · rename_i untyped
      exact ⟨[], .nothing listed untyped, by simp⟩
    · rename_i typed
      exact ⟨_, .types listed typed, by simp⟩
  · rw [if_pos listed]
    exact ⟨_, .choices listed, by simp⟩

theorem listed_unique {first second : List String} {rest other : List Char} (some : first ≠ [])
    (others : second ≠ []) (inFirst : ∀ text ∈ first, ∀ sign ∈ ['|', ']'], sign ∉ text.toList)
    (inSecond : ∀ text ∈ second, ∀ sign ∈ ['|', ']'], sign ∉ text.toList)
    (same : (joined "|" first).toList ++ ']' :: rest = (joined "|" second).toList ++ ']' :: other) :
    first = second ∧ rest = other := by
  have closed {texts : List String} (apart : ∀ text ∈ texts, ∀ sign ∈ ['|', ']'], sign ∉ text.toList) :
      ']' ∉ (joined "|" texts).toList :=
    not_mem_joined (by decide) texts fun text member => apart text member ']' (by simp)
  obtain ⟨lists, rests⟩ := before_unique (closed inFirst) (closed inSecond) same
  refine ⟨joined_unique some others ?_ ?_ (String.toList_injective lists), rests⟩
  · exact fun text member => inFirst text member '|' (by simp)
  · exact fun text member => inSecond text member '|' (by simp)

/-- The characters that the name of such an argument may hold. -/
def inName (c : Char) : Bool := decide (c ∉ ['=', ':', ']'])

private theorem namedShape_unique {first second : Argument} (delimited : first.Delimited)
    (other : second.Delimited) {rest behind : List Char}
    (same : first.namedShape.toList ++ ']' :: rest = second.namedShape.toList ++ ']' :: behind) :
    first.name.getD "" = second.name.getD "" ∧ first.choiceValues = second.choiceValues ∧
      (first.choices = [] → first.typeNames .named = second.typeNames .named) ∧ rest = behind := by
  obtain ⟨shown, behindName, shape⟩ := first.exists_behindName
  obtain ⟨shownOther, behindOther, shapeOther⟩ := second.exists_behindName
  have within {argument : Argument} (delimited : argument.Delimited) :
      ∀ c ∈ (argument.name.getD "").toList, inName c = true := by
    intro c member
    exact decide_eq_true fun sign => delimited.name c sign member
  have ends {argument : Argument} {shown later : List Char} (behindName : BehindName argument shown) :
      ∀ c ∈ (shown ++ ']' :: later).head?, inName c = false := by
    cases behindName <;> simp [inName]
  rw [shape, shapeOther, List.append_assoc, List.append_assoc] at same
  obtain ⟨names, same⟩ := run_unique (within delimited) (within other) (ends behindName)
    (ends behindOther) same
  refine ⟨String.toList_injective names, ?_⟩
  have listed {argument : Argument} (listed : argument.choices ≠ []) : argument.choiceValues ≠ [] := by
    simpa [choiceValues] using listed
  -- The sign behind the name tells which of the three shapes it is.
  cases behindName with
  | choices some =>
    cases behindOther with
    | choices others =>
      obtain ⟨values, rests⟩ := listed_unique (listed some) (listed others) delimited.choices
        other.choices (List.tail_eq_of_cons_eq same)
      exact ⟨values, fun none => absurd none some, rests⟩
    | types => simp at same
    | nothing => simp at same
  | types unlisted typed =>
    cases behindOther with
    | choices => simp at same
    | types unlistedOther typedOther =>
      obtain ⟨types, rests⟩ := listed_unique typed typedOther delimited.types other.types
        (List.tail_eq_of_cons_eq same)
      exact ⟨by rw [choiceValues, choiceValues, unlisted, unlistedOther], fun _ => types, rests⟩
    | nothing => simp at same
  | nothing unlisted untyped =>
    cases behindOther with
    | choices => simp at same
    | types => simp at same
    | nothing unlistedOther untypedOther =>
      refine ⟨by rw [choiceValues, choiceValues, unlisted, unlistedOther], fun _ => ?_,
        List.tail_eq_of_cons_eq same⟩
      rw [untyped, untypedOther]

private theorem shownDefault_unique {first second : Argument} (delimited : first.Delimited)
    (other : second.Delimited) {rest behind : List Char}
    (same : first.shownDefault.elim [] (" = ".toList ++ ·.toList) ++ '`' :: rest =
      second.shownDefault.elim [] (" = ".toList ++ ·.toList) ++ '`' :: behind) :
    first.shownDefault = second.shownDefault ∧ rest = behind := by
  have unclosed {argument : Argument} (delimited : argument.Delimited) :
      '`' ∉ argument.shownDefault.elim [] (" = ".toList ++ ·.toList) := by
    cases shown : argument.shownDefault with
    | none => simp
    | some value =>
      have given : value ∈ argument.defaultValue := (Option.filter_eq_some_iff.1 shown).1
      simpa using delimited.value value given
  obtain ⟨values, rests⟩ := before_unique (unclosed delimited) (unclosed other) same
  refine ⟨?_, rests⟩
  cases shown : first.shownDefault with
  | none =>
    cases shownOther : second.shownDefault with
    | none => rfl
    | some value => simp [shown, shownOther] at values
  | some value =>
    cases shownOther : second.shownDefault with
    | none => simp [shown, shownOther] at values
    | some valueOther =>
      rw [shown, shownOther, Option.elim_some, Option.elim_some, List.append_cancel_left_eq] at values
      rw [String.toList_injective values]

private theorem closing_unique {first second : Argument}
    (alike : first.isRequired = second.isRequired)
    (same : closing first = closing second) : first.shownDescription = second.shownDescription := by
  rw [closing, closing, alike] at same
  cases shown : first.shownDescription with
  | none =>
    cases shownOther : second.shownDescription with
    | none => rfl
    | some text => simp [shown, shownOther] at same
  | some text =>
    cases shownOther : second.shownDescription with
    | none => simp [shown, shownOther] at same
    | some textOther =>
      simp only [shown, shownOther, List.append_cancel_right_eq, List.append_cancel_left_eq] at same
      rw [String.toList_injective same]

private theorem afterShape_unique {first second : Argument} (delimited : first.Delimited)
    (other : second.Delimited) (same : afterShape first = afterShape second) :
    first.isRequired = second.isRequired ∧ first.shownDefault = second.shownDefault ∧
      first.shownDescription = second.shownDescription := by
  -- A question mark stands right behind the bracket or nowhere before the default.
  have unmarked {argument : Argument} {later : List Char} :
      (argument.shownDefault.elim [] (" = ".toList ++ ·.toList) ++ '`' :: later).head? ≠ some '?' := by
    cases argument.shownDefault <;> simp
  have alike : first.isRequired = second.isRequired := by
    have heads := congrArg List.head? same
    rw [afterShape, afterShape] at heads
    cases required : first.isRequired <;> cases requiredOther : second.isRequired
    · rfl
    · rw [required, requiredOther] at heads
      exact absurd heads.symm unmarked
    · rw [required, requiredOther] at heads
      exact absurd heads unmarked
    · rfl
  rw [afterShape, afterShape, alike, List.append_cancel_left_eq] at same
  obtain ⟨values, closings⟩ := shownDefault_unique delimited other same
  exact ⟨alike, values, closing_unique alike closings⟩

theorem toList_namedLine (argument : Argument) :
    argument.namedLine.toList =
      ['-', ' ', '`', '['] ++ (argument.namedShape.toList ++ ']' :: afterShape argument) := by
  rw [namedLine, toList_lineOfShape]
  simp

private theorem namedLine_congr {first second : Argument}
    (names : first.name.getD "" = second.name.getD "")
    (values : first.choiceValues = second.choiceValues)
    (types : first.choices = [] → first.typeNames .named = second.typeNames .named)
    (alike : first.isRequired = second.isRequired)
    (defaults : first.shownDefault = second.shownDefault)
    (descriptions : first.shownDescription = second.shownDescription) :
    first.namedLine = second.namedLine := by
  have unlisted : first.choices = [] ↔ second.choices = [] := by
    rw [← List.map_eq_nil_iff (f := Choice.value), ← List.map_eq_nil_iff (f := Choice.value)]
    exact iff_of_eq (congrArg (· = []) values)
  have shapes : first.namedShape = second.namedShape := by
    rw [namedShape, namedShape, names, values]
    by_cases none : first.choices = []
    · rw [if_neg (not_not.2 none), if_neg (not_not.2 (unlisted.1 none)), types none]
    · rw [if_pos none, if_pos (mt unlisted.2 none)]
  rw [namedLine, namedLine, lineOfShape, lineOfShape, shapes, alike, defaults, descriptions]

/-- Lines of named arguments are unambiguous: two such lines are the same exactly if the arguments
have the same name, the same values, the same types where no values are listed, are both required
or both optional, and show the same default and the same description. -/
theorem namedLine_eq_iff {first second : Argument} (delimited : first.Delimited)
    (other : second.Delimited) :
    first.namedLine = second.namedLine ↔
      first.name.getD "" = second.name.getD "" ∧ first.choiceValues = second.choiceValues ∧
      (first.choices = [] → first.typeNames .named = second.typeNames .named) ∧
      first.isRequired = second.isRequired ∧ first.shownDefault = second.shownDefault ∧
      first.shownDescription = second.shownDescription := by
  constructor
  · intro same
    have lists := congrArg String.toList same
    rw [toList_namedLine, toList_namedLine, List.append_cancel_left_eq] at lists
    obtain ⟨names, values, types, rests⟩ := namedShape_unique delimited other lists
    exact ⟨names, values, types, afterShape_unique delimited other rests⟩
  · rintro ⟨names, values, types, alike, defaults, descriptions⟩
    exact namedLine_congr names values types alike defaults descriptions

/-- An argument without a name whose texts hold the signs of the line where they may. -/
def nameless : Argument :=
  ⟨none, some "a `]` = |", some ["A.B"], false, true, some "]? = |", [⟨"", none⟩, ⟨"=:", some "d"⟩]⟩

/-- The same line from other declarations. -/
def emptyNamed : Argument :=
  ⟨some "", some "a `]` = |", none, false, false, some "]? = |", [⟨"", some "e"⟩, ⟨"=:", none⟩]⟩

theorem namedLine_eq_iff_nameless :
    nameless.Delimited ∧ emptyNamed.Delimited ∧ nameless ≠ emptyNamed ∧
      nameless.namedLine = emptyNamed.namedLine ∧
      nameless.choiceValues = emptyNamed.choiceValues ∧
      nameless.shownDefault = emptyNamed.shownDefault ∧
      nameless.shownDescription = emptyNamed.shownDescription := by
  have apart {texts : List String}
      (all : texts.all (fun text => ['|', ']'].all fun sign => decide (sign ∉ text.toList)) = true) :
      ∀ text ∈ texts, ∀ sign ∈ ['|', ']'], sign ∉ text.toList :=
    fun text member => forall_mem_of_all (List.all_eq_true.1 all text member)
  have first : nameless.Delimited :=
    ⟨forall_mem_of_all (by decide), apart (by decide +kernel), apart (by decide +kernel),
      by rintro _ ⟨⟩; decide⟩
  have second : emptyNamed.Delimited :=
    ⟨forall_mem_of_all (by decide), apart (by decide +kernel), apart (by decide +kernel),
      by rintro _ ⟨⟩; decide⟩
  have same : nameless.namedLine = emptyNamed.namedLine := by decide +kernel
  obtain ⟨-, values, -, -, defaults, descriptions⟩ := (namedLine_eq_iff first second).1 same
  exact ⟨first, second, by decide, same, values, defaults, descriptions⟩

end Argument

end CommandReference
