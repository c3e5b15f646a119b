import CommandReference.Document.Render
import CommandReference.Proofs.Document.Outline

/-! Reading back the parts of a rendered document. The part of a command is taken in as
one step, which adds the examples that the part shows to the command of that name, and
a section takes the steps of its commands one after the other. -/
namespace CommandReference

open Text

namespace Settings

variable {settings : Settings}

theorem fault?_of_validate (valid : settings.validate = .ok settings) : settings.fault? = none := by
  cases found : settings.fault? with
  | none => rfl
  | some error => simp [validate, found] at valid

theorem language_of_validate (valid : settings.validate = .ok settings) :
    ∀ c ∈ settings.exampleLanguage.toList, isBlank c = false := by
  intro c member
  by_contra blank
  have faulty : settings.exampleLanguage.toList.any (fun c => isBlank c || c = '`') = true := by
    rw [List.any_eq_true]
    exact ⟨c, member, by simp [blank]⟩
  have clean := fault?_of_validate valid
  rw [fault?, if_pos faulty] at clean
  cases clean

private theorem placeholder_of_validate (valid : settings.validate = .ok settings) :
    ∀ line ∈ lines settings.examplePlaceholder.toList, startsWith fence line = false := by
  intro line member
  by_contra begins
  have faulty : (lines settings.examplePlaceholder.toList).any (startsWith fence) = true := by
    rw [List.any_eq_true]
    exact ⟨line, member, by simpa using begins⟩
  have clean := fault?_of_validate valid
  rw [fault?, if_pos faulty] at clean
  split at clean <;> cases clean

private theorem isFence_opening (settings : Settings) :
    settings.isFence (fence.toList ++ settings.exampleLanguage.toList) = true := by
  rw [isFence, after?_append]
  simp

end Settings

namespace Document
open Outline

theorem toList_concat (texts : List String) : (concat texts).toList = texts.flatMap (·.toList) := by
  induction texts with
  | nil => rfl
  | cons text texts ih =>
    rw [List.flatMap_cons, ← ih]
    cases texts with
    | nil => simp [concat, joined]
    | cons next texts => simp [concat, joined]

/-- The text between the heading of a command and the heading of its examples. -/
def aboutPart (command : Command) : String :=
  concat (command.named.map (·.namedLine)) ++ concat (command.unnamed.map (·.unnamedLine)) ++
  "\n" ++ command.help ++ "\n\n"

/-- The examples as the document shows them. -/
def shownExamples (settings : Settings) (command : Command) : List String :=
  if command.examples = [] then [settings.examplePlaceholder ++ "\n"] else command.examples

theorem commandPart_eq (settings : Settings) (command : Command) :
    commandPart settings command =
      "#### `/" ++ command.name ++ "`\n" ++ aboutPart command ++ "##### Examples\n\n" ++
      concat ((shownExamples settings command).map (examplePart settings)) := by
  have examples : examplesPart settings command =
      concat ((shownExamples settings command).map (examplePart settings)) := by
    rw [examplesPart, shownExamples]
    split
    · rfl
    · rfl
  -- `delta` skips the equation lemma, which is slow to state over the string literals
  delta commandPart
  rw [examples, aboutPart]
  simp [String.append_assoc]

private theorem ne_break_of_not_isBlank {c : Char} (shown : isBlank c = false) :
    c ≠ '\n' ∧ c ≠ '\r' := by
  constructor
  · rintro rfl
    exact absurd shown (by decide)
  · rintro rfl
    exact absurd shown (by decide)

/-- A line that ends in a text without a blank at its end has nothing to drop. -/
theorem contentOf_append {start text : List Char} (solid : ∀ c ∈ text.getLast?, isBlank c = false)
    (kept : contentOf start = start) : contentOf (start ++ text) = start ++ text := by
  rcases List.eq_nil_or_concat text with rfl | ⟨body, last, rfl⟩
  · rw [List.append_nil, kept]
  · have shown := ne_break_of_not_isBlank (solid last (by simp))
    rw [List.concat_eq_append, ← List.append_assoc]
    exact List.rdropWhile_concat_neg _ _ _ (by simpa using shown)

/-- An example that can stand between fences: whole lines, none of them a fence. -/
@[mk_iff]
structure Fenceable (settings : Settings) (text : String) : Prop where
  ended : Ended text.toList
  noFence : ∀ raw ∈ rawLines text.toList, settings.isFence (contentOf raw) = false

instance (settings : Settings) (text : String) : Decidable (Fenceable settings text) :=
  decidable_of_iff _ (fenceable_iff settings text).symm

theorem prefix_of_concat {start cs : List Char} {c : Char} (begins : start <+: cs ++ [c])
    (other : c ∉ start) : start <+: cs := by
  rcases List.prefix_concat_iff.1 begins with rfl | inside
  · simp at other
  · exact inside

private theorem startsWith_withoutEnding {raw : List Char}
    (begins : startsWith Settings.fence raw = true) :
    startsWith Settings.fence (withoutEnding raw) = true := by
  rw [startsWith_iff] at begins ⊢
  rw [withoutEnding]
  split
  · rename_i rest shape
    rw [List.reverse_eq_iff, List.reverse_cons, List.reverse_cons] at shape
    rw [shape] at begins
    exact prefix_of_concat (prefix_of_concat begins (by decide)) (by decide)
  · rename_i rest _ shape
    rw [List.reverse_eq_iff, List.reverse_cons] at shape
    rw [shape] at begins
    exact prefix_of_concat begins (by decide)
  · exact begins

private theorem fenceable_placeholder {settings : Settings}
    (valid : settings.validate = .ok settings) :
    Fenceable settings (settings.examplePlaceholder ++ "\n") where
  ended := by
    rw [String.toList_append]
    exact ended_concat _
  noFence := by
    have within : ∀ raw ∈ rawLines settings.examplePlaceholder.toList,
        settings.isFence (contentOf raw) = false := by
      intro raw member
      by_contra isFence
      have begins := Settings.startsWith_of_isFence (by simpa using isFence)
      have begins := startsWith_withoutEnding
        (startsWith_of_isPrefix (contentOf_isPrefix raw) begins)
      have plain := Settings.placeholder_of_validate valid (withoutEnding raw)
        (List.mem_map_of_mem member)
      rw [plain] at begins
      cases begins
    intro raw member
    rw [String.toList_append] at member
    rcases mem_closeLast (rawLines_concat _ ▸ member) with inside | rfl | ⟨line, inside, rfl⟩
    · exact within raw inside
    · rfl
    · rw [contentOf_concat]
      exact within line inside

/-- The lines of a rendered example. -/
def exampleBlock (settings : Settings) (text : String) : ExampleBlock where
  opening := (Settings.fence.toList ++ settings.exampleLanguage.toList) ++ ['\n']
  body := rawLines text.toList
  closing := Settings.fence.toList ++ ['\n']
  gap := [['\n']]

private theorem text_exampleBlock (settings : Settings) (text : String) :
    (exampleBlock settings text).text = text := by
  rw [ExampleBlock.text, exampleBlock, flatten_rawLines, String.ofList_toList]

private theorem fenced_exampleBlock {settings : Settings} (valid : settings.validate = .ok settings)
    {text : String} (fenceable : Fenceable settings text) :
    (exampleBlock settings text).Fenced settings where
  opens := by
    rw [exampleBlock, contentOf_concat, contentOf_append]
    · exact Settings.isFence_opening settings
    · intro c last
      exact Settings.language_of_validate valid c (List.mem_of_getLast? last)
    · rfl
  noFence := fenceable.noFence
  closes := rfl
  gap := by
    intro raw member
    rw [List.mem_singleton.1 member]
    rfl

theorem ended_examplePart (settings : Settings) (text : String) :
    Ended (examplePart settings text).toList := by
  rw [examplePart, String.toList_append]
  exact Ended.append_left (by decide) (by decide) _

private theorem rawLines_examplePart {settings : Settings}
    (valid : settings.validate = .ok settings)
    {text : String} (fenceable : Fenceable settings text) :
    rawLines (examplePart settings text).toList = (exampleBlock settings text).lines := by
  have noBreak : '\n' ∉ Settings.fence.toList ++ settings.exampleLanguage.toList := by
    rw [List.mem_append, not_or]
    refine ⟨by decide, fun member => ?_⟩
    exact absurd (Settings.language_of_validate valid '\n' member) (by decide)
  have shape : (examplePart settings text).toList =
      (Settings.fence.toList ++ settings.exampleLanguage.toList) ++ '\n' ::
        (text.toList ++ (Settings.fence.toList ++ '\n' :: ['\n'])) := by
    simp [examplePart, openingFence]
  have closing : rawLines (Settings.fence.toList ++ '\n' :: ['\n']) =
      [Settings.fence.toList ++ ['\n']] ++ [['\n']] := rfl
  rw [shape, rawLines_line noBreak, rawLines_append fenceable.ended, closing, ← List.append_assoc]
  rfl

/-- Rendered examples are added to the command under which they stand. -/
theorem readAll_examples {settings : Settings} (valid : settings.validate = .ok settings)
    (texts : List String) (fenceable : ∀ text ∈ texts, Fenceable settings text) {state : State}
    {group name : String} (settled : state.cursor = some (.settled group name))
    (known : (state.registry.find? group name).isSome = true) (closed : state.fence = none) :
    state.readAll settings (rawLines (concat (texts.map (examplePart settings))).toList) =
      .ok { state with
        registry := state.registry.update group name (addExamples texts)
        examples := state.examples + texts.length } := by
  have lines : rawLines (concat (texts.map (examplePart settings))).toList =
      (texts.map (exampleBlock settings)).flatMap ExampleBlock.lines := by
    rw [toList_concat, List.flatMap_map, List.flatMap_map,
      rawLines_flatMap_of_ended _ _ fun text _ => ended_examplePart settings text]
    exact List.flatMap_congr fun text member => rawLines_examplePart valid (fenceable text member)
  have fenced : ∀ block ∈ texts.map (exampleBlock settings), block.Fenced settings := by
    rw [List.forall_mem_map]
    exact fun text member => fenced_exampleBlock valid (fenceable text member)
  have shown : (texts.map (exampleBlock settings)).map ExampleBlock.text = texts := by
    simp [Function.comp_def, text_exampleBlock]
  rw [lines, State.readAll_blocks settled known closed _ fenced, shown, List.length_map, settled]
  simp only [Except.ok.injEq, State.mk.injEq, true_and, and_true]
  refine ⟨rfl, ?_⟩
  split <;> rfl

/-- The usage line that would be found under the heading of a command. -/
def usageOf (command : Command) : Option (List Char) :=
  usageIn ((rawLines (aboutPart command).toList).map contentOf)

/-- What the part of a command passes on to the command of the same name in a registry. -/
def carry (settings : Settings) (old command : Command) : Command :=
  addExamples (shownExamples settings old) (noteUsage (usageOf old) command)

/-- The step that the part of a command makes. -/
def attach (settings : Settings) (group : String) (state : State) (old : Command) :
    Except (UnknownCommand × Registry) State :=
  if (state.registry.find? group old.name).isSome then
    .ok { registry := state.registry.update group old.name (carry settings old)
          group := some group
          cursor := some (.settled group old.name)
          fence := none
          examples := state.examples + (shownExamples settings old).length
          commands := state.commands + 1 }
  else .error (⟨group, old.name⟩, state.registry)

/-- A command whose part can be read back: its heading is one line, nothing before its
examples is taken for a heading or a fence, and its examples can stand between fences. -/
@[mk_iff]
structure Legible (settings : Settings) (registry : Registry) (command : Command) : Prop where
  oneLine : '\n' ∉ command.name.toList
  plain : '`' ∉ command.name.toList
  about : ∀ raw ∈ rawLines (aboutPart command).toList, Quiet settings registry (contentOf raw)
  examples : ∀ text ∈ command.examples, Fenceable settings text

instance (settings : Settings) (registry : Registry) (command : Command) :
    Decidable (Legible settings registry command) :=
  decidable_of_iff _ (legible_iff settings registry command).symm

theorem Legible.congr {settings : Settings} {first second : Registry} {command : Command}
    (legible : Legible settings first command) (same : first.groupNames = second.groupNames) :
    Legible settings second command :=
  { legible with about := fun raw member => (legible.about raw member).congr same }

/-- A command whose part can be read back under what is read of its name. -/
structure Readable (settings : Settings) (registry : Registry) (command : Command) : Prop where
  oneLine : '\n' ∉ command.name.toList
  about : ∀ raw ∈ rawLines (aboutPart command).toList, Quiet settings registry (contentOf raw)
  examples : ∀ text ∈ command.examples, Fenceable settings text

theorem Legible.readable {settings : Settings} {registry : Registry} {command : Command}
    (legible : Legible settings registry command) : Readable settings registry command :=
  ⟨legible.oneLine, legible.about, legible.examples⟩

theorem Readable.congr {settings : Settings} {first second : Registry} {command : Command}
    (readable : Readable settings first command) (same : first.groupNames = second.groupNames) :
    Readable settings second command :=
  { readable with about := fun raw member => (readable.about raw member).congr same }

theorem Readable.shownExamples {settings : Settings} (valid : settings.validate = .ok settings)
    {registry : Registry} {command : Command} (readable : Readable settings registry command) :
    ∀ text ∈ shownExamples settings command, Fenceable settings text := by
  intro text member
  rw [Document.shownExamples] at member
  split at member
  · rw [List.mem_singleton.1 member]
    exact fenceable_placeholder valid
  · exact readable.examples text member

/-- A command under what is read of its name. -/
def headed (command : Command) : Command := { command with name := headedName command.name }

def headedGroup (group : Group) : Group :=
  { group with commands := group.commands.map headed }

private theorem ended_aboutPart (command : Command) : Ended (aboutPart command).toList := by
  rw [aboutPart, String.toList_append]
  exact Ended.append_left (by decide) (by decide) _

def commandHeading (name : String) : List Char := '`' :: '/' :: name.toList ++ ['`']

private theorem rawLines_commandPart (settings : Settings) {command : Command}
    (oneLine : '\n' ∉ command.name.toList) :
    rawLines (commandPart settings command).toList =
      (("#### ".toList ++ commandHeading command.name) ++ ['\n']) ::
        (rawLines (aboutPart command).toList ++
          (("##### Examples".toList ++ ['\n']) :: ['\n'] ::
            rawLines (concat ((Document.shownExamples settings command).map
              (examplePart settings))).toList)) := by
  have noBreak : '\n' ∉ "#### ".toList ++ commandHeading command.name := by
    simpa [commandHeading] using oneLine
  have shape : (commandPart settings command).toList =
      ("#### ".toList ++ commandHeading command.name) ++ '\n' :: ((aboutPart command).toList ++
        ("##### Examples".toList ++ '\n' :: '\n' ::
          (concat
            ((Document.shownExamples settings command).map (examplePart settings))).toList)) := by
    simp [commandPart_eq, commandHeading]
  rw [shape, rawLines_line noBreak, rawLines_append (ended_aboutPart command),
    rawLines_line (by decide), rawLines_break]

private theorem contentOf_commandHeading (name : String) :
    contentOf (("#### ".toList ++ commandHeading name) ++ ['\n']) =
      "#### ".toList ++ commandHeading name := by
  rw [contentOf_concat, commandHeading, ← List.append_assoc]
  exact List.rdropWhile_concat_neg _ _ _ (by decide)

/-- What follows the heading of a command: the help text and the examples. -/
theorem readAll_underHeading {settings : Settings} (valid : settings.validate = .ok settings)
    {state : State} {group name : String} {command : Command}
    (reading : state.cursor = some ⟨group, name, true, true⟩)
    (known : (state.registry.find? group name).isSome = true) (closed : state.fence = none)
    (readable : Readable settings state.registry command) :
    state.readAll settings (rawLines (aboutPart command).toList ++
        (("##### Examples".toList ++ ['\n']) :: ['\n'] ::
          rawLines (concat ((shownExamples settings command).map (examplePart settings))).toList)) =
      .ok { state with
        registry := state.registry.update group name (carry settings command)
        cursor := some (.settled group name)
        examples := state.examples + (shownExamples settings command).length } := by
  obtain ⟨awaits, help⟩ := State.readAll_help reading closed _ readable.about
  let settledState : State := { state with
    registry := state.registry.update group name (noteUsage (usageOf command))
    cursor := some (.settled group name) }
  have stillKnown : (settledState.registry.find? group name).isSome = true := by
    have keeps (other : Command) : (noteUsage (usageOf command) other).name = other.name := rfl
    exact (Registry.isSome_find?_update _ keeps group name group name).trans known
  have shown := readAll_examples valid _ (readable.shownExamples valid)
    (show settledState.cursor = some (.settled group name) from rfl) stillKnown closed
  have fused := state.registry.update_update group name (noteUsage (usageOf command))
    (addExamples (shownExamples settings command)) fun _ => rfl
  have headed : startsWith "##### " (contentOf ("##### Examples".toList ++ ['\n'])) = true := by
    decide
  rw [State.readAll_append_of_ok help,
    State.readAll_cons_of_ok (State.read_subheading rfl (by exact closed) headed _)]
  change settledState.readAll settings _ = _
  rw [State.readAll_cons_of_ok (State.read_blank settings settledState closed), shown]
  exact congrArg (fun registry => Except.ok ({ settledState with
    registry := registry
    examples := state.examples + (shownExamples settings command).length } : State)) fused

/-- The part of a command is one step. -/
theorem readAll_commandPart {settings : Settings} (valid : settings.validate = .ok settings)
    {state : State} {group : String} (settled : state.Settled) (inGroup : state.group = some group)
    {command : Command} (readable : Readable settings state.registry command) :
    state.readAll settings (rawLines (commandPart settings command).toList) =
      attach settings group state (headed command) := by
  have heading : state.read settings
      (contentOf (("#### ".toList ++ commandHeading command.name) ++ ['\n']))
      (("#### ".toList ++ commandHeading command.name) ++ ['\n']) =
      state.openCommand (commandHeading command.name) := by
    rw [contentOf_commandHeading, settled.read_eq rfl, State.readText_command settled.inHelp_eq_false]
  have opened : state.openCommand (commandHeading command.name) = _ :=
    State.openCommand_quoted state group command.name inGroup
  rw [opened] at heading
  rw [rawLines_commandPart settings readable.oneLine, attach]
  split at heading
  · rename_i known
    rw [State.readAll_cons_of_ok heading, if_pos (by exact known), ← inGroup, ← settled.closed]
    exact readAll_underHeading valid rfl known settled.closed readable
  · rename_i unknown
    rw [State.readAll, List.foldlM_cons, State.take, heading, if_neg (by exact unknown)]
    rfl

private theorem ended_commandPart (settings : Settings) (command : Command) :
    Ended (commandPart settings command).toList := by
  have examples :
      Ended (concat ((shownExamples settings command).map (examplePart settings))).toList := by
    rw [toList_concat]
    apply ended_flatMap
    intro text member
    obtain ⟨code, _, rfl⟩ := List.mem_map.1 member
    exact ended_examplePart settings code
  rw [commandPart_eq, String.toList_append]
  apply Ended.append _ examples
  rw [String.toList_append]
  exact Ended.append_left (by decide) (by decide) _

theorem ended_gapped (settings : Settings) (command : Command) :
    Ended (commandGap ++ commandPart settings command).toList := by
  rw [String.toList_append]
  exact Ended.append (by decide) (ended_commandPart settings command)

theorem settled_of_attach {settings : Settings} {group : String} {state next : State}
    {command : Command} (done : attach settings group state command = .ok next) :
    next.Settled ∧ next.group = some group ∧
      next.registry.groupNames = state.registry.groupNames := by
  rw [attach] at done
  split at done
  · cases done
    refine ⟨⟨rfl, ?_⟩, rfl, Registry.groupNames_update _ _ _ _⟩
    rintro cursor ⟨⟩
    rfl
  · cases done

/-- The commands of a section are taken in one after the other. -/
theorem readAll_commands {settings : Settings} (valid : settings.validate = .ok settings)
    (commands : List Command) {state : State} {group : String} (settled : state.Settled)
    (inGroup : state.group = some group)
    (readable : ∀ command ∈ commands, Readable settings state.registry command) :
    state.readAll settings (rawLines (concat (commands.map fun command =>
        commandGap ++ commandPart settings command)).toList) =
      (commands.map headed).foldlM (attach settings group) state := by
  induction commands generalizing state with
  | nil => rfl
  | cons command commands ih =>
    have gap : state.readAll settings (rawLines commandGap.toList) = .ok state :=
      State.readAll_blanks settings state settled.closed 4
    rw [List.map_cons, toList_concat, List.flatMap_cons,
      rawLines_append (ended_gapped settings command), ← toList_concat,
      String.toList_append, rawLines_append (by decide), List.append_assoc,
      State.readAll_append_of_ok gap, State.readAll_append,
      readAll_commandPart valid settled inGroup (readable command List.mem_cons_self),
      List.map_cons, List.foldlM_cons]
    cases done : attach settings group state (headed command) with
    | error error => rfl
    | ok next =>
      obtain ⟨nextSettled, nextGroup, names⟩ := settled_of_attach done
      apply ih nextSettled nextGroup
      intro other member
      exact (readable other (List.mem_cons_of_mem _ member)).congr names.symm

private theorem settled_of_attachAll {settings : Settings} {group : String}
    (commands : List Command)
    {state next : State} (settled : state.Settled)
    (done : commands.foldlM (attach settings group) state = .ok next) :
    next.Settled ∧ next.registry.groupNames = state.registry.groupNames := by
  induction commands generalizing state with
  | nil =>
    cases done
    exact ⟨settled, rfl⟩
  | cons command commands ih =>
    rw [List.foldlM_cons] at done
    cases first : attach settings group state command with
    | error error =>
      rw [first] at done
      cases done
    | ok middle =>
      rw [first] at done
      obtain ⟨middleSettled, _, names⟩ := settled_of_attach first
      obtain ⟨nextSettled, later⟩ := ih middleSettled done
      exact ⟨nextSettled, later.trans names⟩

def enterGroup (name : String) (state : State) : State :=
  { state with group := some name, cursor := none }

/-- The step that a section makes. -/
def attachGroup (settings : Settings) (state : State) (group : Group) :
    Except (UnknownCommand × Registry) State :=
  group.commands.foldlM (attach settings group.name) (enterGroup group.name state)

/-- A name that can stand in the heading of a section. -/
@[mk_iff]
structure Headable (name : String) : Prop where
  oneLine : '\n' ∉ name.toList
  trimmed : trim name.toList = name.toList

instance (name : String) : Decidable (Headable name) :=
  decidable_of_iff _ (headable_iff name).symm

private theorem contentOf_groupHeading {name : String} (headable : Headable name) :
    contentOf ("### ".toList ++ name.toList) = "### ".toList ++ name.toList := by
  apply contentOf_append
  · intro c last
    rcases List.eq_nil_or_concat name.toList with empty | ⟨body, final, shape⟩
    · simp [empty] at last
    · have trimmed := headable.trimmed
      rw [shape, List.concat_eq_append] at trimmed last
      have same : final = c := by simpa using last
      exact same ▸ not_isBlank_of_trim trimmed
  · rfl

theorem readAll_groupHeading (settings : Settings) {state : State} (settled : state.Settled)
    {name : String} (headable : Headable name) {rest : List Char}
    (leading : ∀ c ∈ rest.head?, c = '\n') :
    state.readAll settings (rawLines (("### ".toList ++ name.toList) ++ rest)) =
      (enterGroup name state).readAll settings (rawLines rest) := by
  have noBreak : '\n' ∉ "### ".toList ++ name.toList := by
    simpa using headable.oneLine
  have content := contentOf_groupHeading headable
  have heading {raw : List Char} (shown : contentOf raw = "### ".toList ++ name.toList) :
      state.read settings (contentOf raw) raw = .ok (enterGroup name state) := by
    rw [shown, settled.read_eq rfl, State.readText_group settled.inHelp_eq_false, headable.trimmed, String.ofList_toList]
    rfl
  cases rest with
  | nil =>
    rw [List.append_nil, rawLines_last noBreak (by simp),
      State.readAll_cons_of_ok (heading content)]
    rfl
  | cons c rest =>
    have same : c = '\n' := leading c rfl
    subst same
    have blank := (enterGroup name state).read_blank settings settled.closed
    rw [rawLines_line noBreak,
      State.readAll_cons_of_ok (heading ((contentOf_concat _).trans content)), rawLines_break,
      State.readAll_cons_of_ok blank]

private theorem leading_sections (settings : Settings) (groups : List Group) :
    ∀ c ∈ (concat (groups.map (groupSection settings))).toList.head?, c = '\n' := by
  cases groups with
  | nil => simp [concat, joined]
  | cons group groups =>
    simp [toList_concat, groupSection, sectionGap]

private theorem leading_commands (settings : Settings) (commands : List Command) {rest : List Char}
    (leading : ∀ c ∈ rest.head?, c = '\n') :
    ∀ c ∈ ((concat (commands.map fun command =>
      commandGap ++ commandPart settings command)).toList ++ rest).head?, c = '\n' := by
  cases commands with
  | nil => simpa [concat, joined] using leading
  | cons command commands =>
    simp [toList_concat, commandGap]

/-- The sections of a document are taken in one after the other. -/
theorem readAll_sections {settings : Settings} (valid : settings.validate = .ok settings)
    (groups : List Group) {state : State} (settled : state.Settled)
    (headable : ∀ group ∈ groups, Headable group.name)
    (readable : ∀ group ∈ groups, ∀ command ∈ group.commands,
      Readable settings state.registry command) :
    state.readAll settings (rawLines (concat (groups.map (groupSection settings))).toList) =
      (groups.map headedGroup).foldlM (attachGroup settings) state := by
  induction groups generalizing state with
  | nil => rfl
  | cons group groups ih =>
    let commandsText := concat (group.commands.map fun command =>
      commandGap ++ commandPart settings command)
    let later := concat (groups.map (groupSection settings))
    have shape : (concat ((group :: groups).map (groupSection settings))).toList =
        sectionGap.toList ++ (("### ".toList ++ group.name.toList) ++
          (commandsText.toList ++ later.toList)) := by
      rw [List.map_cons, toList_concat, List.flatMap_cons, ← toList_concat]
      simp [groupSection, commandsText, later]
    have ended : Ended commandsText.toList := by
      rw [toList_concat]
      apply ended_flatMap
      intro text member
      obtain ⟨command, _, rfl⟩ := List.mem_map.1 member
      exact ended_gapped settings command
    have gap : state.readAll settings (rawLines sectionGap.toList) = .ok state :=
      State.readAll_blanks settings state settled.closed 6
    have inside : (enterGroup group.name state).Settled := ⟨settled.closed, by rintro cursor ⟨⟩⟩
    rw [List.map_cons (f := headedGroup), List.foldlM_cons, shape,
      rawLines_append (by decide), State.readAll_append_of_ok gap,
      readAll_groupHeading settings settled (headable group List.mem_cons_self)
        (leading_commands settings _ (leading_sections settings groups)),
      rawLines_append ended, State.readAll_append,
      readAll_commands valid _ inside rfl (readable group List.mem_cons_self)]
    change (attachGroup settings state (headedGroup group) >>= _) = _
    cases done : attachGroup settings state (headedGroup group) with
    | error error => rfl
    | ok next =>
      obtain ⟨nextSettled, names⟩ := settled_of_attachAll _ inside done
      apply ih nextSettled
      · exact fun other member => headable other (List.mem_cons_of_mem _ member)
      · intro other member command inOther
        exact (readable other (List.mem_cons_of_mem _ member) command inOther).congr names.symm

end Document

end CommandReference
