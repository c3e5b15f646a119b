import CommandReference.Proofs.Document.Conservation
import CommandReference.Proofs.Document.RoundTrip

/-! Settings whose documents can be read back. Commands of which only the names are known come
back from their document exactly if the name of their group can stand in a heading, and no line
of the title or of the description is taken for the heading of the requirements or, under the
heading of a group, for that of a command. -/
namespace CommandReference
open Text

/-- The lines of the title after the first, and those of the description. -/
def Settings.introduction (settings : Settings) : List (List Char) :=
  ((rawLines settings.title.toList).tail ++ rawLines settings.description.toList).map
    Document.contentOf

namespace Document
open Outline

/-- Lines before the requirements that neither end the preamble nor name a command. -/
@[mk_iff]
structure Inert (lines : List (List Char)) : Prop where
  noRequirements : ∀ line ∈ lines, startsWith "## Requirements" line = false
  noCommand : lines.Pairwise fun first second =>
    startsWith "### " first = true → startsWith "#### " second = true → '`' ∉ second

instance (lines : List (List Char)) : Decidable (Inert lines) :=
  decidable_of_iff _ (inert_iff lines).symm

/-- The lines that begin with two number signs. -/
def headings (lines : List (List Char)) : List (List Char) := lines.filter (startsWith "##")

theorem inert_headings_iff (lines : List (List Char)) : Inert (headings lines) ↔ Inert lines := by
  have deeper {mark : String} (inside : "##".toList <+: mark.toList) {line : List Char}
      (begins : startsWith mark line = true) : startsWith "##" line = true :=
    startsWith_iff.2 (inside.trans (startsWith_iff.1 begins))
  rw [inert_iff, inert_iff, headings, List.pairwise_filter]
  constructor
  · rintro ⟨noRequirements, noCommand⟩
    refine ⟨fun line member => ?_, noCommand.imp ?_⟩
    · by_contra begins
      have begins : startsWith "## Requirements" line = true := by simpa using begins
      have inside := List.mem_filter.2 ⟨member, deeper (by decide) begins⟩
      exact absurd begins (by simp [noRequirements line inside])
    · intro first second apart group command
      exact apart (deeper (by decide) group) (deeper (by decide) command) group command
  · rintro ⟨noRequirements, noCommand⟩
    refine ⟨fun line member => noRequirements line (List.mem_of_mem_filter member), ?_⟩
    exact noCommand.imp fun apart _ _ => apart

theorem headings_append (first second : List (List Char)) :
    headings (first ++ second) = headings first ++ headings second := List.filter_append ..

theorem headings_closeLast (lines : List (List Char)) :
    headings ((closeLast lines).map contentOf) = headings (lines.map contentOf) := by
  induction lines using closeLast.induct with
  | case1 => rfl
  | case2 last ended =>
    rw [closeLast, if_pos ended]
    exact (headings_append [contentOf last] [[]]).trans (List.append_nil _)
  | case3 last ended => rw [closeLast, if_neg ended, List.map_singleton, contentOf_concat]; rfl
  | case4 first next later ih =>
    have split (line : List Char) (lines : List (List Char)) :
        headings (line :: lines) = headings [line] ++ headings lines := headings_append [line] lines
    rw [closeLast, List.map_cons, split, ih, ← split]
    rfl

private theorem headings_tail_closeLast (lines : List (List Char)) :
    headings ((closeLast lines).tail.map contentOf) = headings (lines.tail.map contentOf) := by
  cases lines with
  | nil => rfl
  | cons first later =>
    cases later with
    | nil =>
      rw [closeLast]
      split <;> rfl
    | cons next later => exact headings_closeLast (next :: later)

theorem headings_eq_nil {raws : List (List Char)}
    (plain : ∀ raw ∈ raws, startsWith "##" raw = false) : headings (raws.map contentOf) = [] := by
  rw [headings, List.filter_eq_nil_iff]
  intro line member begins
  obtain ⟨raw, inside, rfl⟩ := List.mem_map.1 member
  exact absurd (startsWith_of_isPrefix (contentOf_isPrefix raw) begins) (by simp [plain raw inside])

/-- Of the lines of a preface only those of the introduction can be headings. -/
theorem headings_preface (settings : Settings) {registry : Registry}
    (oneLine : ∀ group ∈ registry.groups, '\n' ∉ group.name.toList)
    (commandsOneLine : ∀ group ∈ registry.groups, ∀ command ∈ group.commands,
      '\n' ∉ command.name.toList) :
    headings ((rawLines (preface settings registry).toList).map contentOf) =
      headings settings.introduction := by
  let shown := registry.groups.filter (!settings.isExcluded ·.name)
  have shape : (preface settings registry).toList =
      ("# ".toList ++ (settings.title.toList ++ ['\n'])) ++ (['\n'] ++
        ((settings.description.toList ++ ['\n']) ++ (['\n'] ++
          ((concat (shown.map indexEntry)).toList ++ sectionGap.toList)))) := by
    simp [preface, shown]
  have index := headings_eq_nil (plain_index shown
    (fun group member => oneLine group (List.mem_of_mem_filter member))
    fun group member => commandsOneLine group (List.mem_of_mem_filter member))
  have title : headings ((rawLines ("# ".toList ++ (settings.title.toList ++ ['\n']))).map
      contentOf) = headings ((rawLines settings.title.toList).tail.map contentOf) := by
    cases lines : rawLines (settings.title.toList ++ ['\n']) with
    | nil => exact absurd (rawLines_concat _ ▸ lines) (closeLast_ne_nil _)
    | cons first later =>
      have first : headings ([("# ".toList ++ first)].map contentOf) = [] :=
        headings_eq_nil (List.forall_mem_singleton.2 rfl)
      rw [← headings_tail_closeLast, ← rawLines_concat, rawLines_lengthened (by decide) lines,
        lines, ← List.singleton_append, List.map_append, headings_append, first]
      rfl
  have lineFeed : Ended ['\n'] := by decide
  rw [shape, rawLines_append ((ended_concat _).append_left (by simp) _),
    rawLines_append lineFeed, rawLines_append (ended_concat _), rawLines_append lineFeed]
  simp only [List.map_append, headings_append, title, index, rawLines_concat, headings_closeLast,
    Settings.introduction]
  exact congrArg (headings _ ++ ·) (List.append_nil _)

theorem commandToken?_eq_none_iff {heading : List Char} :
    commandToken? heading = none ↔ '`' ∉ heading := by
  unfold commandToken?
  split
  · rename_i found
    refine iff_of_true rfl fun member => ?_
    simpa using List.dropWhile_eq_nil_iff.1 found _ member
  · rename_i rest found
    refine iff_of_false (by simp) fun absent => ?_
    rw [List.dropWhile_eq_nil_iff.2 (bne_of_notMem absent)] at found
    cases found

variable {settings : Settings} {state next : State} {line raw : List Char}

theorem State.read_groupHeading (outside : state.cursor = none) {heading : List Char}
    (group : after? "### " line = some heading) :
    state.read settings line raw =
      .ok { state with group := some (String.ofList (trim heading)) } := by
  rw [State.read_outside settings outside, after?_eq_some_iff.1 group,
    State.readText_group (by rw [outside]; rfl), outside]

theorem State.read_commandHeading (outside : state.cursor = none) {heading : List Char}
    (command : after? "#### " line = some heading) :
    state.read settings line raw = state.openCommand heading := by
  rw [State.read_outside settings outside, after?_eq_some_iff.1 command,
    State.readText_command (by rw [outside]; rfl)]

theorem State.openCommand_without (outside : state.cursor = none) {heading : List Char}
    (absent : state.group = none ∨ '`' ∉ heading) : state.openCommand heading = .ok state := by
  obtain ⟨registry, group, cursor, fence, examples, commands⟩ := state
  cases outside
  unfold State.openCommand
  rcases absent with rfl | absent
  · rfl
  · rw [commandToken?_eq_none_iff.2 absent]
    cases group with
    | none => rfl
    | some group => rfl

/-- A line of the preamble names the group, or does nothing. -/
theorem State.read_inert (outside : state.cursor = none)
    (noCommand : state.group.isSome = true → startsWith "#### " line = true → '`' ∉ line) :
    ∃ group, state.read settings line raw = .ok { state with group := group } ∧
      (group.isSome = true → state.group.isSome = true ∨ startsWith "### " line = true) := by
  cases third : after? "### " line with
  | some heading =>
    exact ⟨_, State.read_groupHeading outside third, fun _ => .inr (by simp [startsWith, third])⟩
  | none =>
    refine ⟨state.group, ?_, .inl⟩
    cases fourth : after? "#### " line with
    | none =>
      exact State.read_plain settings outside (after?_eq_none_iff.1 third)
        (after?_eq_none_iff.1 fourth) raw
    | some heading =>
      rw [State.read_commandHeading outside fourth]
      apply State.openCommand_without outside
      cases group : state.group with
      | none => exact .inl rfl
      | some name =>
        have absent := noCommand (by rw [group]; rfl) (by simp [startsWith, fourth])
        rw [after?_eq_some_iff.1 fourth, List.mem_append, not_or] at absent
        exact .inr absent.2

theorem Reading.read_preamble {reading : Reading} (preamble : reading.region = .preamble)
    (noRequirements : startsWith "## Requirements" (contentOf raw) = false) :
    reading.read settings raw = reading.readOutline settings raw := by
  rw [Reading.read, preamble]
  exact if_neg (by rw [noRequirements]; exact Bool.false_ne_true)

private theorem Reading.readAll_inert (settings : Settings) (registry : Registry)
    {raws : List (List Char)}
    (inert : Inert (raws.map contentOf)) {group : Option String}
    (noCommand : group.isSome = true → ∀ line ∈ raws.map contentOf,
      startsWith "#### " line = true → '`' ∉ line) :
    ∃ last, (Reading.mk .preamble [] ⟨registry, group, none, none, 0, 0⟩).readAll settings raws =
      .ok ⟨.preamble, [], ⟨registry, last, none, none, 0, 0⟩⟩ := by
  induction raws generalizing group with
  | nil => exact ⟨group, rfl⟩
  | cons raw raws ih =>
    obtain ⟨noRequirements, apart⟩ := inert
    rw [List.map_cons, List.forall_mem_cons] at noRequirements noCommand
    rw [List.map_cons, List.pairwise_cons] at apart
    have quiet : (State.mk registry group none none 0 0).group.isSome = true →
        startsWith "#### " (contentOf raw) = true → '`' ∉ contentOf raw :=
      fun some => (noCommand some).1
    obtain ⟨named, read, grouped⟩ := @State.read_inert settings _ _ raw rfl quiet
    have here : (Reading.mk .preamble [] ⟨registry, group, none, none, 0, 0⟩).read settings raw =
        .ok ⟨.preamble, [], ⟨registry, named, none, none, 0, 0⟩⟩ := by
      rw [Reading.read_preamble rfl noRequirements.1, Reading.readOutline, read]
      rfl
    rw [Reading.readAll_cons_of_ok here]
    refine ih ⟨noRequirements.2, apart.2⟩ fun some line member => ?_
    rcases grouped some with before | heading
    · exact (noCommand before).2 line member
    · exact apart.1 line member heading

/-- No command is found in a group whose name can stand in a heading. -/
def Unreachable (registry : Registry) : Prop :=
  ∀ group name, Headable group → registry.find? group name = none

private theorem headable_trim {heading : List Char} (oneLine : '\n' ∉ heading) :
    Headable (String.ofList (trim heading)) := by
  constructor
  · rw [String.toList_ofList]
    intro found
    apply oneLine
    exact (List.dropWhile_suffix _).subset ((List.rdropWhile_prefix _ _).subset found)
  · rw [String.toList_ofList, trim_trim]

/-- Where nothing is found, a line that is accepted names a group or does nothing. -/
theorem State.read_unreachable (unreachable : Unreachable state.registry)
    (outside : state.cursor = none) (headable : ∀ name ∈ state.group, Headable name)
    (oneLine : '\n' ∉ line) (read : state.read settings line raw = .ok next) :
    (∃ group, next = { state with group := group } ∧ (∀ name ∈ group, Headable name) ∧
      (state.group.isSome = true ∨ startsWith "### " line = true → group.isSome = true)) ∧
    (state.group.isSome = true → startsWith "#### " line = true → '`' ∉ line) := by
  cases third : after? "### " line with
  | some heading =>
    have shape := after?_eq_some_iff.1 third
    rw [State.read_groupHeading outside third, Except.ok.injEq] at read
    have noBreak : '\n' ∉ heading := fun inside => oneLine (shape ▸ List.mem_append_right _ inside)
    refine ⟨⟨_, read.symm, ?_, fun _ => rfl⟩, fun _ command => ?_⟩
    · rintro name ⟨⟩
      exact headable_trim noBreak
    · rw [shape] at command
      cases command
  | none =>
    have apart : startsWith "### " line = false := after?_eq_none_iff.1 third
    cases fourth : after? "#### " line with
    | none =>
      have noCommand := after?_eq_none_iff.1 fourth
      rw [State.read_plain settings outside apart noCommand raw, Except.ok.injEq] at read
      refine ⟨⟨state.group, read.symm, headable, ?_⟩, ?_⟩
      · simp [apart]
      · simp [noCommand]
    | some heading =>
      have shape := after?_eq_some_iff.1 fourth
      rw [State.read_commandHeading outside fourth] at read
      by_cases absent : state.group = none ∨ '`' ∉ heading
      · rw [State.openCommand_without outside absent, Except.ok.injEq] at read
        refine ⟨⟨state.group, read.symm, headable, by simp [apart]⟩, fun some _ => ?_⟩
        rcases absent with none | absent
        · rw [none] at some
          cases some
        · rw [shape, List.mem_append, not_or]
          exact ⟨by decide, absent⟩
      · rw [not_or, not_not] at absent
        obtain ⟨group, named⟩ := Option.ne_none_iff_exists'.1 absent.1
        obtain ⟨token, quoted⟩ := Option.ne_none_iff_exists'.1
          (mt commandToken?_eq_none_iff.1 (not_not.2 absent.2))
        unfold State.openCommand at read
        rw [named, quoted] at read
        dsimp only at read
        rw [unreachable group _ (headable group named)] at read
        cases read

/-- The preamble is left for good, and the next heading of its level ends the requirements. -/
theorem Reading.read_left {reading final : Reading} (left : reading.region ≠ .preamble)
    (read : reading.read settings raw = .ok final) :
    final.region ≠ .preamble ∧ (startsWith "## " (contentOf raw) = true →
      ∃ outline, final = ⟨.body, reading.requirements, outline⟩) := by
  obtain ⟨region, requirements, outline⟩ := reading
  cases region with
  | preamble => exact absurd rfl left
  | requirements =>
    unfold Reading.read at read
    dsimp only at read
    split at read
    · cases read
      exact ⟨by simp, fun _ => ⟨outline, rfl⟩⟩
    · rename_i noHeading
      split at read <;> cases read <;> exact ⟨by simp, fun heading => absurd heading noHeading⟩
  | body =>
    obtain ⟨next, -, rfl⟩ := Reading.readOutline_eq_ok read
    exact ⟨by simp, fun _ => ⟨next, rfl⟩⟩

private theorem Reading.readAll_left {reading final : Reading} {raws : List (List Char)}
    (left : reading.region ≠ .preamble) (read : reading.readAll settings raws = .ok final) :
    final.region ≠ .preamble := by
  induction raws generalizing reading with
  | nil =>
    cases read
    exact left
  | cons raw raws ih =>
    obtain ⟨middle, first, rest⟩ := Reading.readAll_cons_eq_ok read
    exact ih (Reading.read_left left first).1 rest

/-- The outline has found no command. -/
def Reading.Empty (registry : Registry) (reading : Reading) : Prop :=
  ∃ group, reading.outline = ⟨registry, group, none, none, 0, 0⟩ ∧ ∀ name ∈ group, Headable name

private theorem Reading.empty_start (registry : Registry) :
    (Reading.start registry).Empty registry :=
  ⟨none, rfl, by rintro name ⟨⟩⟩

theorem notMem_contentOf {cs : List Char} (member : raw ∈ rawLines cs) : '\n' ∉ contentOf raw := by
  obtain ⟨body, absent, rfl | rfl⟩ := exists_body_of_mem_rawLines member
  · exact fun found => absent ((contentOf_isPrefix _).subset found)
  · rw [contentOf_concat]
    exact fun found => absent ((contentOf_isPrefix _).subset found)

section Empty
variable {registry : Registry} (unreachable : Unreachable registry) {reading final : Reading}
include unreachable

theorem Reading.Empty.read (empty : reading.Empty registry) (oneLine : '\n' ∉ contentOf raw)
    (read : reading.read settings raw = .ok final) : final.Empty registry := by
  obtain ⟨group, same, headable⟩ := empty
  rcases Reading.read_cases read with ⟨region, rfl⟩ | ⟨outline, done, rfl⟩ | ⟨-, -, rfl⟩
  · exact ⟨group, same, headable⟩
  · rw [same] at done
    obtain ⟨⟨named, rfl, headable, -⟩, -⟩ :=
      State.read_unreachable unreachable rfl headable oneLine done
    exact ⟨named, rfl, headable⟩
  · exact ⟨group, same, headable⟩

theorem Reading.Empty.readAll {raws : List (List Char)} (empty : reading.Empty registry)
    (oneLine : ∀ raw ∈ raws, '\n' ∉ contentOf raw)
    (read : reading.readAll settings raws = .ok final) : final.Empty registry := by
  induction raws generalizing reading with
  | nil =>
    cases read
    exact empty
  | cons raw raws ih =>
    rw [List.forall_mem_cons] at oneLine
    obtain ⟨middle, first, rest⟩ := Reading.readAll_cons_eq_ok read
    exact ih (empty.read unreachable oneLine.1 first) oneLine.2 rest

/-- Where nothing is found and the preamble is not left, the lines were inert. -/
theorem Reading.inert_of_readAll {raws : List (List Char)} {group : Option String}
    (preamble : reading.region = .preamble) (outline : reading.outline = ⟨registry, group, none, none, 0, 0⟩)
    (headable : ∀ name ∈ group, Headable name) (oneLine : ∀ raw ∈ raws, '\n' ∉ contentOf raw)
    (read : reading.readAll settings raws = .ok final) (stays : final.region = .preamble) :
    Inert (raws.map contentOf) ∧ (group.isSome = true → ∀ line ∈ raws.map contentOf,
      startsWith "#### " line = true → '`' ∉ line) := by
  induction raws generalizing reading group with
  | nil => exact ⟨⟨by simp, .nil⟩, by simp⟩
  | cons raw raws ih =>
    rw [List.forall_mem_cons] at oneLine
    obtain ⟨middle, first, rest⟩ := Reading.readAll_cons_eq_ok read
    have noRequirements : startsWith "## Requirements" (contentOf raw) = false := by
      by_contra heading
      rw [Reading.read, preamble] at first
      cases (if_pos (by simpa using heading)).symm.trans first
      exact Reading.readAll_left (by simp) rest stays
    rw [Reading.read_preamble preamble noRequirements] at first
    obtain ⟨next, done, rfl⟩ := Reading.readOutline_eq_ok first
    rw [outline] at done
    obtain ⟨⟨named, rfl, named_headable, grouped⟩, noCommand⟩ :=
      State.read_unreachable unreachable rfl headable oneLine.1 done
    have same : Reading.region { reading with outline := ⟨registry, named, none, none, 0, 0⟩ } =
        .preamble := preamble
    obtain ⟨⟨later, apart⟩, below⟩ := ih same rfl named_headable oneLine.2 rest
    refine ⟨⟨?_, ?_⟩, fun some => ?_⟩
    · rw [List.map_cons, List.forall_mem_cons]
      exact ⟨noRequirements, later⟩
    · rw [List.map_cons, List.pairwise_cons]
      exact ⟨fun line member heading => below (grouped (.inr heading)) line member, apart⟩
    · rw [List.map_cons, List.forall_mem_cons]
      exact ⟨noCommand some, below (grouped (.inl some))⟩

end Empty

/-- Commands of which only the names are known, different names that can stand in headings. A
usage line is not shown, and may be there. -/
structure Skeletal (commands : List Command) : Prop where
  distinct : (commands.map (·.name)).Nodup
  oneLine : ∀ command ∈ commands, '\n' ∉ command.name.toList
  plain : ∀ command ∈ commands, '`' ∉ command.name.toList
  help : ∀ command ∈ commands, command.help = ""
  named : ∀ command ∈ commands, command.named = []
  unnamed : ∀ command ∈ commands, command.unnamed = []
  examples : ∀ command ∈ commands, command.examples = []

/-- The document of a registry gives back its requirements and all its commands, and is the
document of what it gives back. -/
def RoundTrips (settings : Settings) (registry : Registry) (lines : List (List Char)) : Prop :=
  ∃ found,
    recover settings registry (render settings (requirementsOf lines) registry) = .ok found ∧
    found.requirements = requirementsOf lines ∧ found.commands = registry.commandCount ∧
    render settings found.requirements found.registry =
      render settings (requirementsOf lines) registry

def inDefaultGroup (settings : Settings) (commands : List Command) : Registry :=
  ⟨[⟨settings.defaultGroup, commands⟩]⟩

/-- All documents about commands of the default group of which only the names are known can be
read back. -/
def ReadsBack (settings : Settings) : Prop :=
  ∀ commands, Skeletal commands → ∀ lines, (∀ line ∈ lines, Prose line) →
    RoundTrips settings (inDefaultGroup settings commands) lines

private theorem rawLines_render (settings : Settings) (requirements : String)
    (registry : Registry) :
    ∃ rest, rawLines (render settings requirements registry).toList =
      rawLines (preface settings registry).toList ++
        ("## Requirements".toList ++ ['\n']) :: rest :=
  ⟨_, rawLines_render_eq settings requirements registry⟩

/-- Requirements that come back whatever they are were not looked for in the preface. -/
theorem preamble_of_roundTrips {registry : Registry}
    (roundTrips : ∀ lines, (∀ line ∈ lines, Prose line) → RoundTrips settings registry lines) :
    ∃ reading, (Reading.start registry).readAll settings
        (rawLines (preface settings registry).toList) = .ok reading ∧
      reading.region = .preamble := by
  have reaches (lines : List (List Char)) (prose : ∀ line ∈ lines, Prose line) :
      ∃ reading, (Reading.start registry).readAll settings
          (rawLines (preface settings registry).toList) = .ok reading ∧
        (reading.region ≠ .preamble → String.ofList reading.requirements = requirementsOf lines) := by
    obtain ⟨found, recovered, kept, -, -⟩ := roundTrips lines prose
    obtain ⟨final, read, rfl⟩ := exists_reading recovered
    obtain ⟨rest, shape⟩ := rawLines_render settings (requirementsOf lines) registry
    rw [shape] at read
    obtain ⟨reading, before, after⟩ := exists_of_foldlM_append read
    refine ⟨reading, before, fun left => ?_⟩
    obtain ⟨middle, first, later⟩ := Reading.readAll_cons_eq_ok after
    obtain ⟨outline, rfl⟩ := (Reading.read_left left first).2 rfl
    rw [Reading.readAll_body] at later
    rw [← kept]
    cases done : outline.readAll settings rest with
    | error failure =>
      rw [done] at later
      cases later
    | ok last =>
      rw [done] at later
      cases later
      rfl
  obtain ⟨reading, read, none⟩ := reaches [] (by simp)
  obtain ⟨again, readAgain, one⟩ := reaches [['x']] (List.forall_mem_singleton.2 (by decide))
  cases read.symm.trans readAgain
  refine ⟨reading, read, ?_⟩
  by_contra left
  exact absurd ((none left).symm.trans (one left)) (by decide)

private theorem quiet_blank (settings : Settings) (registry : Registry) :
    Quiet settings registry [] :=
  ⟨rfl, rfl, rfl⟩

theorem Skeletal.legible {commands : List Command} (skeletal : Skeletal commands)
    (registry : Registry) {command : Command} (member : command ∈ commands) :
    Legible settings registry command where
  oneLine := skeletal.oneLine command member
  plain := skeletal.plain command member
  about := by
    intro raw inside
    have shape : (aboutPart command).toList = ['\n', '\n', '\n'] := by
      rw [aboutPart, skeletal.help command member, skeletal.named command member,
        skeletal.unnamed command member]
      rfl
    rw [shape] at inside
    have same : raw = ['\n'] := by simpa [rawLines] using inside
    rw [same]
    exact quiet_blank settings registry
  examples := by simp [skeletal.examples command member]

private theorem Skeletal.distinctInGroup {commands : List Command} (skeletal : Skeletal commands)
    (settings : Settings) : (inDefaultGroup settings commands).Distinct where
  groups := by simp [inDefaultGroup, Registry.groupNames]
  commands := by simpa [inDefaultGroup, Group.commandNames] using skeletal.distinct

private theorem Skeletal.withoutExamples_eq {commands : List Command} (skeletal : Skeletal commands)
    (settings : Settings) :
    withoutExamples (inDefaultGroup settings commands) = inDefaultGroup settings commands := by
  have same : commands.map (fun command => { command with examples := [] }) = commands := by
    refine (List.map_congr_left fun command member => ?_).trans (List.map_id _)
    rw [← skeletal.examples command member]
    rfl
  simp only [withoutExamples, Registry.mapCommands, inDefaultGroup, List.map_cons, List.map_nil,
    same]

/-- The document is read back as one step for each command. -/
theorem recover_inDefaultGroup (valid : settings.validate = .ok settings)
    (headable : Headable settings.defaultGroup) (inert : Inert settings.introduction)
    {commands : List Command} (skeletal : Skeletal commands) {lines : List (List Char)}
    (prose : ∀ line ∈ lines, Prose line) :
    recover settings (inDefaultGroup settings commands)
        (render settings (requirementsOf lines) (inDefaultGroup settings commands)) =
      (inDefaultGroup settings commands).entries.foldlM (carryOver settings)
        ⟨inDefaultGroup settings commands, requirementsOf lines, 0, 0⟩ := by
  let registry := inDefaultGroup settings commands
  have groups : ∀ group ∈ registry.groups, Headable group.name :=
    List.forall_mem_singleton.2 headable
  have legible : ∀ group ∈ registry.groups, ∀ command ∈ group.commands,
      Legible settings registry command :=
    List.forall_mem_singleton.2 fun command member => skeletal.legible registry member
  have quiet : Inert ((rawLines (preface settings registry).toList).map contentOf) := by
    rw [← inert_headings_iff, headings_preface settings
      (fun group member => (groups group member).oneLine)
      fun group member command inside => (legible group member command inside).oneLine,
      inert_headings_iff]
    exact inert
  have nowhere : (none : Option String).isSome = true → ∀ line ∈
      (rawLines (preface settings registry).toList).map contentOf,
      startsWith "#### " line = true → '`' ∉ line := by
    rintro ⟨⟩
  obtain ⟨last, before⟩ := Reading.readAll_inert settings registry quiet nowhere
  have settled : (State.mk registry last none none 0 0).Settled := ⟨rfl, by rintro cursor ⟨⟩⟩
  have read := recover_render_of_preface valid settled before groups
    (fun group member command inside => (legible group member command inside).readable) lines prose
  have plain := headedRegistry_of_plain fun group member command inside =>
    (legible group member command inside).plain
  refine read.trans ((foldlM_attachGroup_summary settings (requirementsOf lines)
    (headedRegistry registry).groups _).trans ?_)
  rw [plain]
  rfl

private theorem readsBack_of_inert (valid : settings.validate = .ok settings)
    (headable : Headable settings.defaultGroup) (inert : Inert settings.introduction) :
    ReadsBack settings := by
  intro commands skeletal lines prose
  have distinct := skeletal.distinctInGroup settings
  have empty : ∀ group ∈ (inDefaultGroup settings commands).groups, ∀ command ∈ group.commands,
      command.examples = [] := List.forall_mem_singleton.2 skeletal.examples
  have handed : carryAll settings (inDefaultGroup settings commands).entries
      (inDefaultGroup settings commands) =
      (inDefaultGroup settings commands).mapCommands fun _ command =>
        handedOn settings command command := by
    rw [carryAll_eq_handedOver settings distinct.entries_nodup distinct empty,
      ← handedOver_withoutExamples settings distinct, skeletal.withoutExamples_eq settings]
  refine ⟨_, (recover_inDefaultGroup valid headable inert skeletal prose).trans
    (foldlM_carryOver_of_known settings _ distinct fun entry member =>
      isSome_find?_of_mem_entries distinct member), rfl, ?_, ?_⟩
  · rw [Registry.commandCount_eq_length_entries]
    exact Nat.zero_add _
  · rw [handed]
    exact render_handedOn settings _ _

theorem headable_of_readsBack (back : ReadsBack settings) : Headable settings.defaultGroup := by
  by_contra unheadable
  have skeletal : Skeletal [.ofName "a"] := by
    constructor <;> simp [Command.ofName]
  have unreachable : Unreachable (inDefaultGroup settings [.ofName "a"]) := by
    intro group name headable
    have apart : settings.defaultGroup ≠ group := fun same => unheadable (same ▸ headable)
    simp [Registry.find?, Registry.group?, inDefaultGroup, apart]
  obtain ⟨found, recovered, -, count, -⟩ := back _ skeletal [] (by simp)
  obtain ⟨final, read, rfl⟩ := exists_reading recovered
  obtain ⟨group, outline, -⟩ := (Reading.empty_start _).readAll unreachable
    (fun raw member => notMem_contentOf member) read
  rw [Reading.finish, outline] at count
  cases count

private theorem inert_of_readsBack (back : ReadsBack settings) : Inert settings.introduction := by
  have headable := headable_of_readsBack back
  have skeletal : Skeletal [] := by
    constructor <;> simp
  have unreachable : Unreachable (inDefaultGroup settings []) := by
    intro group name _
    by_cases same : settings.defaultGroup = group
    · simp [Registry.find?, Registry.group?, inDefaultGroup, same, Group.find?]
    · simp [Registry.find?, Registry.group?, inDefaultGroup, same]
  obtain ⟨reading, read, preamble⟩ := preamble_of_roundTrips (back [] skeletal)
  have nothing : ∀ name ∈ (none : Option String), Headable name := by
    rintro name ⟨⟩
  obtain ⟨inert, -⟩ := Reading.inert_of_readAll unreachable rfl rfl nothing
    (fun raw member => notMem_contentOf member) read preamble
  have oneLine : ∀ group ∈ (inDefaultGroup settings []).groups, '\n' ∉ group.name.toList :=
    List.forall_mem_singleton.2 headable.oneLine
  have noCommands : ∀ group ∈ (inDefaultGroup settings []).groups, ∀ command ∈ group.commands,
      '\n' ∉ command.name.toList := List.forall_mem_singleton.2 (by simp)
  rw [← inert_headings_iff, headings_preface settings oneLine noCommands,
    inert_headings_iff] at inert
  exact inert

/-- What the settings have to keep for their documents to be read back, beyond what is checked
of them: the name of the default group can stand in a heading, and nothing that the title or the
description says is taken for the requirements or for a command. -/
theorem readsBack_iff (valid : settings.validate = .ok settings) :
    ReadsBack settings ↔ Headable settings.defaultGroup ∧ Inert settings.introduction := by
  constructor
  · intro back
    exact ⟨headable_of_readsBack back, inert_of_readsBack back⟩
  · rintro ⟨headable, inert⟩
    exact readsBack_of_inert valid headable inert

/-- A description that mentions a group, and a command outside of it. -/
def chattySettings : Settings :=
  { Settings.standard with description := "#### `/a`\n### A\n#### B" }

theorem readsBack_chattySettings :
    chattySettings.validate = .ok chattySettings ∧ ReadsBack chattySettings := by
  have valid : chattySettings.validate = .ok chattySettings := by decide +kernel
  exact ⟨valid, (readsBack_iff valid).2 ⟨by decide +kernel, by decide +kernel⟩⟩

/-- Settings that pass the check, with a blank before the name of the default group. -/
def indentedSettings : Settings := ⟨"T", "", " G", [], "", ""⟩

/-- The heading of the group is read without the blank, and then its command is not found. -/
theorem recover_render_indentedSettings :
    indentedSettings.validate = .ok indentedSettings ∧
    recover indentedSettings (inDefaultGroup indentedSettings [.ofName "a"])
        (render indentedSettings (requirementsOf [])
          (inDefaultGroup indentedSettings [.ofName "a"])) =
      .error (⟨"G", "a"⟩, inDefaultGroup indentedSettings [.ofName "a"]) := by
  decide +kernel

end Document

end CommandReference
