import CommandReference.Proofs.Document.Rereading

/-! The texts of a source in the document. A text starts in the middle of a line, so only its
later lines stand at the left edge, and the last of them goes on with what is put behind it. If
the lines of the texts are no fences and no headings, neither are those of the document, with one
exception: the backtick that closes a default value can complete a fence. -/
namespace CommandReference
open Text

/-- The texts of an argument that are shown. -/
def Argument.texts (kind : ArgumentKind) (argument : Argument) : List String :=
  argument.name.toList ++ argument.typeNames kind ++ argument.choiceValues ++
  argument.shownDefault.toList ++ argument.shownDescription.toList

def Command.texts (command : Command) : List String :=
  command.help :: (command.named.flatMap (·.texts .named) ++
    command.unnamed.flatMap (·.texts .unnamed))

def Command.arguments (command : Command) : List Argument := command.named ++ command.unnamed

/-- The backtick behind the default value does not make a fence of the value's last line. A
description keeps the line from ending there. -/
def Argument.Unglued (argument : Argument) : Prop :=
  argument.shownDescription = none →
    ∀ value ∈ argument.shownDefault, ¬ ['\n', '`', '`'] <:+ value.toList

instance (argument : Argument) : Decidable argument.Unglued :=
  inferInstanceAs (Decidable (argument.shownDescription = none →
    ∀ value ∈ argument.shownDefault, ¬ ['\n', '`', '`'] <:+ value.toList))

namespace Document
open Outline

/-- A line that is no fence and no heading of the third, fourth or fifth level. -/
@[mk_iff]
structure Calm (settings : Settings) (raw : List Char) : Prop where
  noFence : settings.isFence (contentOf raw) = false
  headless : ∀ mark ∈ ["### ", "#### ", "##### "], startsWith mark (contentOf raw) = false

instance (settings : Settings) (raw : List Char) : Decidable (Calm settings raw) :=
  decidable_of_iff _ (calm_iff settings raw).symm

/-- Every text is free of fences and headings. -/
def CalmTexts (settings : Settings) (registry : Registry) : Prop :=
  ∀ group ∈ registry.groups, ∀ command ∈ group.commands, ∀ text ∈ command.texts,
    ∀ raw ∈ rawLines text.toList, Calm settings raw

instance (settings : Settings) (registry : Registry) : Decidable (CalmTexts settings registry) :=
  inferInstanceAs (Decidable (∀ group ∈ registry.groups, ∀ command ∈ group.commands,
    ∀ text ∈ command.texts, ∀ raw ∈ rawLines text.toList, Calm settings raw))

/-- No default value becomes a fence. -/
def Unglued (registry : Registry) : Prop :=
  ∀ group ∈ registry.groups, ∀ command ∈ group.commands, ∀ argument ∈ command.arguments,
    argument.Unglued

instance (registry : Registry) : Decidable (Unglued registry) :=
  inferInstanceAs (Decidable (∀ group ∈ registry.groups, ∀ command ∈ group.commands,
    ∀ argument ∈ command.arguments, argument.Unglued))

theorem isFence_iff {settings : Settings} {line : List Char} :
    settings.isFence line = true ↔
      line = Settings.fence.toList ∨
      line = Settings.fence.toList ++ settings.exampleLanguage.toList := by
  rw [Settings.isFence]
  cases found : after? Settings.fence line with
  | none =>
    rw [after?_eq_none_iff] at found
    constructor
    · simp
    · rintro (rfl | rfl)
      · rw [startsWith_iff.2 (List.prefix_refl _)] at found
        cases found
      · rw [startsWith_iff.2 (List.prefix_append _ _)] at found
        cases found
  | some tag =>
    rw [after?_eq_some_iff] at found
    subst found
    simp

private theorem mem_contentOf {raw : List Char} {c : Char} (member : c ∈ raw)
    (shown : c ≠ '\n' ∧ c ≠ '\r') : c ∈ contentOf raw := by
  obtain ⟨dropped, shape, breaks⟩ :=
    exists_append_dropEndWhile (fun c => c = '\n' || c = '\r') raw
  rw [shape, List.mem_append] at member
  rcases member with inside | inside
  · exact inside
  · have dropped := breaks c inside
    simp [shown] at dropped

private theorem mark_chars {mark : String} (member : mark ∈ ["### ", "#### ", "##### "]) :
    ∀ c ∈ mark.toList, c = '#' ∨ c = ' ' := by
  simp only [List.mem_cons, List.not_mem_nil, or_false] at member
  rcases member with rfl | rfl | rfl <;> simp

private theorem exists_mark_cons {mark : String} (member : mark ∈ ["### ", "#### ", "##### "]) :
    ∃ rest, mark.toList = '#' :: rest := by
  simp only [List.mem_cons, List.not_mem_nil, or_false] at member
  rcases member with rfl | rfl | rfl <;> exact ⟨_, rfl⟩

section

variable {settings : Settings}

/-- A heading does not arise when a line goes on with a character that no mark has. -/
theorem Calm.headless_append {line more : List Char} {c : Char} (calm : Calm settings line)
    (other : c ≠ '#' ∧ c ≠ ' ') (mark : String) (member : mark ∈ ["### ", "#### ", "##### "]) :
    startsWith mark (contentOf (line ++ c :: more)) = false := by
  have chars := mark_chars member
  by_contra begins
  rw [Bool.not_eq_false, startsWith_iff] at begins
  have absent : c ∉ mark.toList := by
    intro inside
    rcases chars c inside with same | same
    · exact other.1 same
    · exact other.2 same
  have inLine := isPrefix_of_append_cons absent (begins.trans (contentOf_isPrefix _))
  -- What is cut off at the end of the line has no character of a mark either.
  obtain ⟨dropped, shape, breaks⟩ :=
    exists_append_dropEndWhile (fun c => c = '\n' || c = '\r') line
  have inContent : mark.toList <+: contentOf line := by
    rw [shape] at inLine
    cases dropped with
    | nil => simpa [contentOf] using inLine
    | cons d dropped =>
      apply isPrefix_of_append_cons _ inLine
      intro inside
      have cut := breaks d List.mem_cons_self
      rcases chars d inside with rfl | rfl <;> simp at cut
  have noHeading := calm.headless mark member
  rw [startsWith_iff.2 inContent] at noHeading
  cases noHeading

theorem calm_nil : Calm settings [] := by
  refine ⟨?_, by decide⟩
  rw [Bool.eq_false_iff, Ne, isFence_iff]
  simp [contentOf, dropEndWhile, Settings.fence]

theorem calm_concat {line : List Char} (calm : Calm settings line) :
    Calm settings (line ++ ['\n']) := by
  rw [calm_iff, contentOf_concat]
  exact ⟨calm.noFence, calm.headless⟩

theorem calm_break : Calm settings ['\n'] := calm_concat calm_nil

/-- A line that starts with neither mark is calm. -/
theorem calm_cons {c : Char} (other : c ≠ '#' ∧ c ≠ '`') (more : List Char) :
    Calm settings (c :: more) := by
  have start := contentOf_isPrefix (c :: more)
  constructor
  · by_contra fence
    rw [Bool.not_eq_false, isFence_iff] at fence
    rcases fence with same | same <;> rw [same] at start <;>
      exact other.2 (List.cons_prefix_cons.1 start).1.symm
  · intro mark member
    obtain ⟨rest, shape⟩ := exists_mark_cons member
    by_contra begins
    rw [Bool.not_eq_false, startsWith_iff, shape] at begins
    exact other.1 (List.cons_prefix_cons.1 (begins.trans start)).1.symm

/-- A character that separates texts and stands in no fence and no mark. -/
def Connects (settings : Settings) (c : Char) : Prop :=
  c ∉ ['#', ' ', '`', '\n', '\r'] ∧ c ∉ settings.exampleLanguage.toList

theorem Calm.append {line more : List Char} {c : Char} (calm : Calm settings line)
    (connects : Connects settings c) : Calm settings (line ++ c :: more) := by
  obtain ⟨apart, foreign⟩ := connects
  simp only [List.mem_cons, List.not_mem_nil, or_false, not_or] at apart
  obtain ⟨noMark, noBlank, noTick, noFeed, noReturn⟩ := apart
  refine ⟨?_, calm.headless_append ⟨noMark, noBlank⟩⟩
  have inside : c ∈ contentOf (line ++ c :: more) := mem_contentOf (by simp) ⟨noFeed, noReturn⟩
  by_contra fence
  rw [Bool.not_eq_false, isFence_iff] at fence
  rcases fence with same | same <;> rw [same] at inside
  · simp [Settings.fence, noTick] at inside
  · simp [Settings.fence, noTick, foreign] at inside

/-- All lines but the first are calm. -/
def CalmBelow (settings : Settings) (cs : List Char) : Prop :=
  ∀ raw ∈ (rawLines cs).tail, Calm settings raw

theorem CalmBelow.lengthened {start cs : List Char} (noBreak : '\n' ∉ start)
    (below : CalmBelow settings cs) : CalmBelow settings (start ++ cs) := by
  rw [CalmBelow, tail_rawLines_lengthened noBreak]
  exact below

theorem CalmBelow.of_text {cs : List Char} (calm : ∀ raw ∈ rawLines cs, Calm settings raw) :
    CalmBelow settings cs :=
  fun raw member => calm raw (List.mem_of_mem_tail member)

theorem CalmBelow.append {text rest : List Char} {c : Char} (below : CalmBelow settings text)
    (connects : Connects settings c) (behind : CalmBelow settings (c :: rest)) :
    CalmBelow settings (text ++ c :: rest) := by
  have noBreak : c ≠ '\n' := by
    rintro rfl
    exact connects.1 (by simp)
  obtain ⟨more, others, lines⟩ := exists_rawLines_cons noBreak rest
  rw [CalmBelow, lines] at behind
  intro raw member
  rcases mem_tail_rawLines_append lines member with inside | later | ⟨last, rfl, -, rfl | inside⟩
  · exact below raw inside
  · exact behind raw later
  · exact calm_nil.append connects
  · exact (below last inside).append connects

private theorem calmBelow_joined {texts : List String} {rest : List Char} {c : Char}
    (bar : Connects settings '|') (connects : Connects settings c)
    (below : ∀ text ∈ texts, CalmBelow settings text.toList)
    (behind : CalmBelow settings (c :: rest)) :
    CalmBelow settings ((joined "|" texts).toList ++ c :: rest) := by
  induction texts with
  | nil => simpa [joined] using behind
  | cons text texts ih =>
    rw [List.forall_mem_cons] at below
    cases texts with
    | nil =>
      simpa [joined] using below.1.append connects behind
    | cons next texts =>
      have later : CalmBelow settings (['|'] ++ _) := (ih below.2).lengthened (by simp)
      have both := below.1.append bar later
      simpa [joined, String.intercalate_cons_cons] using both

/-- The language of the examples has none of the characters around the texts. -/
def Unmixed (settings : Settings) : Prop :=
  ∀ c ∈ [' ', '`', '=', ':', '|', ']', ')'], c ∉ settings.exampleLanguage.toList

theorem Unmixed.connects (unmixed : Unmixed settings) {c : Char}
    (member : c ∈ ['=', ':', '|', ']', ')']) : Connects settings c := by
  refine ⟨?_, unmixed c (by simp_all)⟩
  simp only [List.mem_cons, List.not_mem_nil, or_false] at member
  rcases member with rfl | rfl | rfl | rfl | rfl <;> decide

/-- A fence ends with a backtick or with the language. -/
theorem eq_fence_of_concat (unmixed : Unmixed settings) {line : List Char} {c : Char}
    (fence : settings.isFence (line ++ [c]) = true) (foreign : c ∈ [' ', '`']) :
    line = ['`', '`'] ∧ c = '`' := by
  have absent : c ∉ settings.exampleLanguage.toList :=
    unmixed c (List.mem_append_left ['=', ':', '|', ']', ')'] foreign)
  have ticks : Settings.fence.toList = ['`', '`'] ++ ['`'] := rfl
  rw [isFence_iff] at fence
  rcases List.eq_nil_or_concat settings.exampleLanguage.toList with empty | ⟨body, last, shape⟩
  · rw [empty, List.append_nil, or_self, ticks] at fence
    simpa using List.append_inj' fence rfl
  · rcases fence with same | same
    · rw [ticks] at same
      simpa using List.append_inj' same rfl
    · rw [shape, List.concat_eq_append, ← List.append_assoc] at same
      have ends : c = last := by simpa using (List.append_inj' same rfl).2
      rw [shape, ends] at absent
      simp at absent

/-- What stands behind the backtick after an argument. -/
def closing (argument : Argument) : List Char :=
  let note := if argument.isRequired then "" else "*optional* "
  match argument.shownDescription with
  | some text => "  \n ".toList ++ note.toList ++ text.toList ++ ['\n']
  | none => ['\n']

theorem rawLines_closing {argument : Argument}
    (calm : ∀ text ∈ argument.shownDescription, ∀ raw ∈ rawLines text.toList, Calm settings raw) :
    ∃ more others, rawLines ('`' :: closing argument) = ('`' :: more ++ ['\n']) :: others ∧
      (more = [] ∧ argument.shownDescription = none ∨ more = [' ', ' ']) ∧
      ∀ raw ∈ others, Calm settings raw := by
  rw [closing]
  cases shown : argument.shownDescription with
  | none => exact ⟨[], [], rfl, .inl ⟨rfl, rfl⟩, by simp⟩
  | some text =>
    generalize noted : (if argument.isRequired then "" else "*optional* ") = note
    have noBreak : '\n' ∉ ' ' :: note.toList := by
      rw [← noted]
      split <;> decide
    refine ⟨[' ', ' '], rawLines (' ' :: (note.toList ++ text.toList ++ ['\n'])), ?_, .inr rfl, ?_⟩
    · have noBreak : '\n' ∉ ['`', ' ', ' '] := by decide
      exact rawLines_line noBreak _
    · obtain ⟨more, others, lines⟩ :=
        exists_rawLines_cons (c := ' ') (by decide) (note.toList ++ text.toList ++ ['\n'])
      have later := tail_rawLines_lengthened noBreak (text.toList ++ ['\n'])
      rw [← List.append_assoc, List.cons_append, List.cons_append, lines, List.tail_cons,
        rawLines_concat] at later
      rw [lines, List.forall_mem_cons]
      refine ⟨calm_cons (by decide) more, fun raw member => ?_⟩
      rw [later] at member
      have below := CalmBelow.of_text (calm text shown)
      rcases mem_tail_closeLast member with inside | rfl | ⟨body, inside, rfl⟩
      · exact below raw inside
      · exact calm_break
      · exact calm_concat (below body inside)

/-- A default value and what stands behind it. -/
theorem calmBelow_value (unmixed : Unmixed settings) {argument : Argument} {value : String}
    (described : ∀ text ∈ argument.shownDescription, ∀ raw ∈ rawLines text.toList,
      Calm settings raw)
    (calm : ∀ raw ∈ rawLines value.toList, Calm settings raw)
    (unglued : argument.shownDescription = none → ¬ ['\n', '`', '`'] <:+ value.toList) :
    CalmBelow settings (value.toList ++ '`' :: closing argument) := by
  obtain ⟨more, others, lines, kinds, calmOthers⟩ := rawLines_closing described
  have below := CalmBelow.of_text calm
  intro raw member
  rcases mem_tail_rawLines_append lines member with inside | later | ⟨last, rfl, place, start⟩
  · exact below raw inside
  · exact calmOthers raw later
  · have calmLast : Calm settings last := by
      rcases start with rfl | inside
      · exact calm_nil
      · exact below last inside
    refine ⟨?_, calmLast.headless_append (by decide)⟩
    by_contra fence
    rw [Bool.not_eq_false] at fence
    rcases kinds with ⟨rfl, bare⟩ | rfl
    · have content : contentOf (last ++ ['`', '\n']) = last ++ ['`'] := by
        rw [List.append_cons, contentOf_concat]
        exact List.rdropWhile_concat_neg _ last _ (by decide)
      rw [List.singleton_append, content] at fence
      rw [(eq_fence_of_concat unmixed fence (by decide)).1] at place
      exact unglued bare place
    · have content : contentOf (last ++ ['`', ' ', ' ', '\n']) = last ++ ['`', ' '] ++ [' '] := by
        have shape : last ++ ['`', ' ', ' ', '\n'] = last ++ ['`', ' '] ++ [' '] ++ ['\n'] := by
          simp
        rw [shape, contentOf_concat]
        exact List.rdropWhile_concat_neg _ _ _ (by decide)
      rw [List.cons_append, List.cons_append, List.singleton_append, content] at fence
      exact absurd (eq_fence_of_concat unmixed fence (by decide)).2 (by decide)

/-- What stands behind the brackets of an argument. -/
def afterShape (argument : Argument) : List Char :=
  (if argument.isRequired then "" else "?").toList ++
  (argument.shownDefault.elim [] (" = ".toList ++ ·.toList) ++ '`' :: closing argument)

theorem toList_lineOfShape (shape : String) (argument : Argument) :
    (argument.lineOfShape shape).toList =
      ['-', ' ', '`'] ++ (shape.toList ++ afterShape argument) := by
  rw [Argument.lineOfShape, afterShape, closing]
  cases argument.shownDefault <;> cases argument.shownDescription <;> simp

/-- An argument whose line brings in no fence and no heading. -/
structure Argument.Orderly (settings : Settings) (kind : ArgumentKind) (argument : Argument) :
    Prop where
  calm : ∀ text ∈ argument.texts kind, ∀ raw ∈ rawLines text.toList, Calm settings raw
  unglued : argument.Unglued

private theorem calmBelow_afterShape (unmixed : Unmixed settings) {kind : ArgumentKind}
    {argument : Argument} (orderly : Argument.Orderly settings kind argument) :
    CalmBelow settings (afterShape argument) := by
  have described : ∀ text ∈ argument.shownDescription, ∀ raw ∈ rawLines text.toList,
      Calm settings raw := by
    intro text shown
    exact orderly.calm text (by simp_all [Argument.texts])
  have noBreak : '\n' ∉ (if argument.isRequired then "" else "?").toList := by
    split <;> decide
  apply CalmBelow.lengthened noBreak
  cases shown : argument.shownDefault with
  | none =>
    obtain ⟨more, others, lines, -, calmOthers⟩ := rawLines_closing described
    rw [CalmBelow, Option.elim_none, List.nil_append, lines]
    exact calmOthers
  | some value =>
    have noBreak : '\n' ∉ " = ".toList := by decide
    have calm := orderly.calm value (by simp [Argument.texts, shown])
    have below := calmBelow_value unmixed described calm
      fun bare => orderly.unglued bare value shown
    rw [Option.elim_some, List.append_assoc]
    exact below.lengthened noBreak

theorem calm_lineOfShape (unmixed : Unmixed settings) {kind : ArgumentKind} {argument : Argument}
    (orderly : Argument.Orderly settings kind argument) {shape : String}
    (shaped : ∀ rest, CalmBelow settings rest → CalmBelow settings (shape.toList ++ rest)) :
    ∀ raw ∈ rawLines (argument.lineOfShape shape).toList, Calm settings raw := by
  have noBreak : '\n' ∉ ['-', ' ', '`'] := by decide
  have below := (shaped _ (calmBelow_afterShape unmixed orderly)).lengthened noBreak
  rw [← toList_lineOfShape] at below
  obtain ⟨more, others, lines⟩ := exists_rawLines_cons (c := '-') (by decide)
    ([' ', '`'] ++ (shape.toList ++ afterShape argument))
  have starts : rawLines (argument.lineOfShape shape).toList = ('-' :: more) :: others := by
    rw [toList_lineOfShape]
    exact lines
  rw [CalmBelow, starts] at below
  rw [starts, List.forall_mem_cons]
  exact ⟨calm_cons (by decide) more, below⟩

theorem calmBelow_name {kind : ArgumentKind} {argument : Argument}
    (orderly : Argument.Orderly settings kind argument) {c : Char} (connects : Connects settings c)
    {rest : List Char} (behind : CalmBelow settings (c :: rest)) :
    CalmBelow settings ((argument.name.getD "").toList ++ c :: rest) := by
  cases named : argument.name with
  | none => simpa using behind
  | some name =>
    have calm := orderly.calm name (by simp [Argument.texts, named])
    exact (CalmBelow.of_text calm).append connects behind

theorem calmBelow_texts (unmixed : Unmixed settings) {kind : ArgumentKind} {argument : Argument}
    (orderly : Argument.Orderly settings kind argument) {texts : List String}
    (shown : texts ⊆ argument.texts kind) {c : Char} (connects : Connects settings c)
    {rest : List Char} (behind : CalmBelow settings (c :: rest)) :
    CalmBelow settings ((joined "|" texts).toList ++ c :: rest) := by
  refine calmBelow_joined (unmixed.connects (by decide)) connects (fun text member => ?_) behind
  exact CalmBelow.of_text (orderly.calm text (shown member))

theorem choiceValues_subset (kind : ArgumentKind) (argument : Argument) :
    argument.choiceValues ⊆ argument.texts kind := by
  intro text member
  simp [Argument.texts, member]

theorem typeNames_subset (kind : ArgumentKind) (argument : Argument) :
    argument.typeNames kind ⊆ argument.texts kind := by
  intro text member
  simp [Argument.texts, member]

private theorem calmBelow_namedShape (unmixed : Unmixed settings) {argument : Argument}
    (orderly : Argument.Orderly settings .named argument) {c : Char}
    (connects : Connects settings c) {rest : List Char} (behind : CalmBelow settings (c :: rest)) :
    CalmBelow settings (argument.namedShape.toList ++ c :: rest) := by
  rw [Argument.namedShape]
  split
  · have choices := calmBelow_texts unmixed orderly (choiceValues_subset _ _) connects behind
    have signed : CalmBelow settings (['='] ++ _) := choices.lengthened (by decide)
    simpa using calmBelow_name orderly (unmixed.connects (by decide)) signed
  · split
    · exact calmBelow_name orderly connects behind
    · have types := calmBelow_texts unmixed orderly (typeNames_subset _ _) connects behind
      have signed : CalmBelow settings ([':'] ++ _) := types.lengthened (by decide)
      simpa using calmBelow_name orderly (unmixed.connects (by decide)) signed

private theorem calmBelow_unnamedShape (unmixed : Unmixed settings) {argument : Argument}
    (orderly : Argument.Orderly settings .unnamed argument) {c : Char}
    (connects : Connects settings c) {rest : List Char} (behind : CalmBelow settings (c :: rest)) :
    CalmBelow settings (argument.unnamedShape.toList ++ c :: rest) := by
  rw [Argument.unnamedShape]
  split
  · have choices := calmBelow_texts unmixed orderly (choiceValues_subset _ _) connects behind
    have signed : CalmBelow settings (['='] ++ _) := choices.lengthened (by decide)
    simpa using signed
  · exact calmBelow_texts unmixed orderly (typeNames_subset _ _) connects behind

private theorem calm_namedLine (unmixed : Unmixed settings) {argument : Argument}
    (orderly : Argument.Orderly settings .named argument) :
    ∀ raw ∈ rawLines argument.namedLine.toList, Calm settings raw := by
  apply calm_lineOfShape unmixed orderly
  intro rest calm
  have behind : CalmBelow settings ([']'] ++ rest) := calm.lengthened (by decide)
  have inner := calmBelow_namedShape unmixed orderly (unmixed.connects (by decide)) behind
  have opened : CalmBelow settings (['['] ++ _) := inner.lengthened (by decide)
  simpa using opened

private theorem calm_unnamedLine (unmixed : Unmixed settings) {argument : Argument}
    (orderly : Argument.Orderly settings .unnamed argument) :
    ∀ raw ∈ rawLines argument.unnamedLine.toList, Calm settings raw := by
  apply calm_lineOfShape unmixed orderly
  intro rest calm
  have behind : CalmBelow settings ([')'] ++ rest) := calm.lengthened (by decide)
  have inner := calmBelow_unnamedShape unmixed orderly (unmixed.connects (by decide)) behind
  have opened : CalmBelow settings (['('] ++ _) := inner.lengthened (by decide)
  simpa using opened

theorem ended_lineOfShape (shape : String) (argument : Argument) :
    Ended (argument.lineOfShape shape).toList := by
  rw [Argument.lineOfShape, String.toList_append]
  exact ended_concat _

theorem ended_namedLine (argument : Argument) : Ended argument.namedLine.toList :=
  ended_lineOfShape _ argument

theorem ended_unnamedLine (argument : Argument) : Ended argument.unnamedLine.toList :=
  ended_lineOfShape _ argument

/-- The lines of texts that are put one behind the other. -/
theorem calm_concat_map {α : Type} {items : List α} {line : α → String}
    (ended : ∀ item, Ended (line item).toList)
    (calm : ∀ item ∈ items, ∀ raw ∈ rawLines (line item).toList, Calm settings raw) :
    ∀ raw ∈ rawLines (concat (items.map line)).toList, Calm settings raw := by
  rw [toList_concat]
  induction items with
  | nil => simp [rawLines]
  | cons item items ih =>
    rw [List.forall_mem_cons] at calm
    rw [List.map_cons, List.flatMap_cons, rawLines_append (ended item), List.forall_mem_append]
    exact ⟨calm.1, ih calm.2⟩

theorem ended_concat_map {α : Type} (items : List α) {line : α → String}
    (ended : ∀ item, Ended (line item).toList) : Ended (concat (items.map line)).toList := by
  rw [toList_concat, List.flatMap_map]
  exact ended_flatMap items _ fun item _ => ended item

/-- The lines of a text that ends here. -/
theorem calm_closed {cs : List Char} (calm : ∀ raw ∈ rawLines cs, Calm settings raw) :
    ∀ raw ∈ rawLines (cs ++ ['\n']), Calm settings raw := by
  intro raw member
  rw [rawLines_concat] at member
  rcases mem_closeLast member with inside | rfl | ⟨body, inside, rfl⟩
  · exact calm raw inside
  · exact calm_break
  · exact calm_concat (calm body inside)

private theorem calm_aboutPart (unmixed : Unmixed settings) {command : Command}
    (calm : ∀ text ∈ command.texts, ∀ raw ∈ rawLines text.toList, Calm settings raw)
    (unglued : ∀ argument ∈ command.arguments, argument.Unglued) :
    ∀ raw ∈ rawLines (aboutPart command).toList, Calm settings raw := by
  have named : ∀ raw ∈ rawLines (concat (command.named.map (·.namedLine))).toList,
      Calm settings raw := by
    apply calm_concat_map ended_namedLine
    intro argument member
    apply calm_namedLine unmixed
    refine ⟨fun text inside => calm text ?_, unglued argument (List.mem_append_left _ member)⟩
    simp only [Command.texts, List.mem_cons, List.mem_append, List.mem_flatMap]
    exact .inr (.inl ⟨argument, member, inside⟩)
  have unnamed : ∀ raw ∈ rawLines (concat (command.unnamed.map (·.unnamedLine))).toList,
      Calm settings raw := by
    apply calm_concat_map ended_unnamedLine
    intro argument member
    apply calm_unnamedLine unmixed
    refine ⟨fun text inside => calm text ?_, unglued argument (List.mem_append_right _ member)⟩
    simp only [Command.texts, List.mem_cons, List.mem_append, List.mem_flatMap]
    exact .inr (.inr ⟨argument, member, inside⟩)
  have help := calm_closed (calm_closed (calm command.help (by simp [Command.texts])))
  have shape : (aboutPart command).toList =
      (concat (command.named.map (·.namedLine))).toList ++
      ((concat (command.unnamed.map (·.unnamedLine))).toList ++
      '\n' :: (command.help.toList ++ ['\n'] ++ ['\n'])) := by
    simp [aboutPart]
  rw [shape, rawLines_append (ended_concat_map _ ended_namedLine),
    rawLines_append (ended_concat_map _ ended_unnamedLine), rawLines_break]
  simp only [List.forall_mem_append, List.forall_mem_cons]
  exact ⟨named, unnamed, calm_break, help⟩

/-- Texts without fences and headings leave none in what is shown about the commands. -/
theorem unobtrusive_of_calmTexts (unmixed : Unmixed settings) {registry : Registry}
    (calm : CalmTexts settings registry) (unglued : Unglued registry) :
    Unobtrusive settings registry := by
  have lines (group) (inside : group ∈ registry.groups) (command)
      (member : command ∈ group.commands) :=
    calm_aboutPart unmixed (calm group inside command member) (unglued group inside command member)
  constructor
  · intro group inside command member raw shown
    exact (lines group inside command member raw shown).noFence
  · intro group inside command member raw shown
    exact (lines group inside command member raw shown).headless

end

end Document

end CommandReference
