import CommandReference.Proofs.Document.Conservation

/-! The examples of a command. Between fences lines are kept as they are, whatever they would be
elsewhere. The help text in front of them may have headings of its own up to its first line of the
level at which the examples are headed; a heading of a group or command behind that line leaves
the command, and its examples are lost. -/
namespace CommandReference.Document
open Text Outline

variable {settings : Settings}

/-- From any point below the heading of a command at which no fence is open, examples are added
to that command in order and verbatim, and nothing else changes. -/
theorem readAll_blocks_verbatim {registry : Registry} {document : String} {count : Nat}
    {reading : Reading} {cursor : Cursor} {blocks : List ExampleBlock}
    (reached : (Reading.start registry).readAll settings ((rawLines document.toList).take count) =
      .ok reading)
    (body : reading.region = .body) (inside : reading.outline.cursor = some cursor)
    (closed : reading.outline.fence = none) (fenced : ∀ block ∈ blocks, block.Fenced settings) :
    ∃ command grown next,
      reading.outline.registry.find? cursor.group cursor.command = some command ∧
      reading.readAll settings (blocks.flatMap ExampleBlock.lines) =
        .ok ⟨.body, reading.requirements, ⟨grown, reading.outline.group, some next,
          none, reading.outline.examples + blocks.length, reading.outline.commands⟩⟩ ∧
      Registry.Replaced cursor.group command (addExamples (blocks.map ExampleBlock.text) command)
        reading.outline.registry grown ∧
      grown.find? cursor.group cursor.command =
        some (addExamples (blocks.map ExampleBlock.text) command) ∧
      cursor.Same next := by
  have sound := Reading.sound_readAll (List.take_append_drop count _).symm
    (Reading.sound_start settings registry) (Reading.whole_start settings registry) reached
  obtain ⟨command, found⟩ := sound.outline.resolves cursor inside
  obtain ⟨region, requirements, state⟩ := reading
  subst body
  have known := Option.isSome_iff_exists.2 ⟨command, found⟩
  have read := State.readAll_blocks inside known closed blocks fenced
  have keeps (other : Command) :
      (addExamples (blocks.map ExampleBlock.text) other).name = other.name := rfl
  refine ⟨command, _, if blocks = [] then cursor else .settled cursor.group cursor.command, found,
    ?_, Registry.replaced_update _ found _, ?_, ?_⟩
  · rw [Reading.readAll_body, read, ← closed]
    rfl
  · rw [Registry.find?_update _ keeps, found]
    rfl
  · split <;> exact ⟨rfl, rfl⟩

/-- Under the heading of the only command of a registry. -/
def underHeading : Reading :=
  ⟨.body, [], ⟨⟨[⟨"G", [.ofName "a"]⟩]⟩, some "G", some ⟨"G", "a", true, true⟩, none, 0, 1⟩⟩

/-- Two examples whose lines would be headings, the start of the requirements and a fence of
another language outside. -/
def unrulyBlocks : List ExampleBlock :=
  [⟨"```\r\n".toList, ["### G\r\n".toList, "#### `/b`\n".toList, "\n".toList],
      "```stscript\n".toList, ["\n".toList, " \r\n".toList]⟩,
    ⟨"```stscript\n".toList, ["## Requirements\n".toList, "```sh\n".toList], "```".toList, []⟩]

theorem readAll_blocks_verbatim_unruly :
    (Reading.start ⟨[⟨"G", [.ofName "a"]⟩]⟩).readAll .standard
      ((rawLines "## Requirements\n## C\n### G\n#### `/a`\n".toList).take 4) = .ok underHeading ∧
    (∀ block ∈ unrulyBlocks, block.Fenced .standard) ∧
    ∃ grown next,
      underHeading.readAll .standard (unrulyBlocks.flatMap ExampleBlock.lines) =
        .ok ⟨.body, [], ⟨grown, some "G", some next, none, 2, 1⟩⟩ ∧
      grown.find? "G" "a" = some { Command.ofName "a" with
        examples := ["### G\r\n#### `/b`\n\n", "## Requirements\n```sh\n"] } := by
  have reached : (Reading.start ⟨[⟨"G", [.ofName "a"]⟩]⟩).readAll .standard
      ((rawLines "## Requirements\n## C\n### G\n#### `/a`\n".toList).take 4) =
      .ok underHeading := by
    decide +kernel
  have fenced : ∀ block ∈ unrulyBlocks, block.Fenced .standard := by decide +kernel
  obtain ⟨command, grown, next, found, read, -, added, -⟩ :=
    readAll_blocks_verbatim reached rfl rfl rfl fenced
  cases found
  exact ⟨reached, fenced, grown, next, read, added⟩

/-- A line that is a heading of the outline also within a help text: it names a group of the
registry, or has the form in which a command is headed. -/
def Heading (registry : Registry) (line : List Char) : Prop :=
  (∃ name, line = "### ".toList ++ name ∧ String.ofList (trim name) ∈ registry.groupNames) ∨
    ∃ heading name, line = "#### ".toList ++ heading ∧
      trim heading = "`/".toList ++ name ++ "`".toList

private theorem quoted_iff {token : List Char} :
    (2 < byteSize token && startsWith "`/" token && (before? "`" token).isSome) = true ↔
      ∃ name, token = "`/".toList ++ name ++ "`".toList := by
  rw [Bool.and_eq_true, Bool.and_eq_true, decide_eq_true_eq, startsWith_iff,
    Option.isSome_iff_exists]
  constructor
  · rintro ⟨⟨-, rest, rfl⟩, shorter, found⟩
    have shape := before?_eq_some_iff.1 found
    rcases List.eq_nil_or_concat rest with rfl | ⟨name, last, rfl⟩
    · have last := congrArg List.getLast? shape
      simp at last
    · rw [List.concat_eq_append, ← List.append_assoc] at shape ⊢
      obtain ⟨-, last⟩ := List.append_inj' shape rfl
      exact ⟨name, by rw [last]⟩
  · rintro ⟨name, rfl⟩
    have size := length_le_byteSize ("`/".toList ++ name ++ "`".toList)
    have begins : "`/".toList <+: "`/".toList ++ name ++ "`".toList := by
      rw [List.append_assoc]
      exact List.prefix_append _ _
    refine ⟨⟨Nat.lt_of_lt_of_le ?_ size, begins⟩, _, before?_eq_some_iff.2 rfl⟩
    simp

theorem isHeading_iff {registry : Registry} {line : List Char} :
    isHeading registry line = true ↔ Heading registry line := by
  unfold isHeading Heading
  simp only [← after?_eq_some_iff]
  cases third : after? "### " line with
  | some group =>
    have begins : startsWith "### " line = true := by simp [startsWith, third]
    have apart : after? "#### " line = none :=
      after?_eq_none_iff.2 (startsWith_eq_false_of_apart begins (by decide))
    simp [apart, Registry.isSome_group?_iff]
  | none =>
    cases fourth : after? "#### " line with
    | some heading => simpa using quoted_iff
    | none => simp

instance (registry : Registry) (line : List Char) : Decidable (Heading registry line) :=
  decidable_of_iff _ isHeading_iff

/-- Whether a line begins as the headings of groups and commands do. -/
def headsSection (raw : List Char) : Bool :=
  startsWith "### " (contentOf raw) || startsWith "#### " (contentOf raw)

/-- Whether a line begins as the heading of the examples does. -/
def endsHelp (raw : List Char) : Bool := startsWith "##### " (contentOf raw)

variable {origin state next : State} {group name : String} {raw title : List Char}
  {help tail : List (List Char)} {block : ExampleBlock}

theorem read_settled (inside : state.cursor = some (.settled group name))
    (closed : state.fence = none) (noFence : settings.isFence (contentOf raw) = false)
    (plain : headsSection raw = false) :
    state.read settings (contentOf raw) raw = .ok state := by
  rw [headsSection, Bool.or_eq_false_iff] at plain
  rw [State.read_prose inside closed noFence (.inr plain)]
  obtain ⟨registry, holder, cursor, fence, examples, commands⟩ := state
  cases inside
  rfl

private theorem readAll_settled (inside : state.cursor = some (.settled group name))
    (closed : state.fence = none)
    (noFence : ∀ raw ∈ help, settings.isFence (contentOf raw) = false)
    (plain : ∀ raw ∈ help, headsSection raw = false) :
    state.readAll settings help = .ok state := by
  induction help with
  | nil => rfl
  | cons raw help ih =>
    rw [List.forall_mem_cons] at noFence plain
    rw [State.readAll_cons_of_ok (read_settled inside closed noFence.1 plain.1), ih noFence.2 plain.2]

/-- A help text has no subheading, or is cut at its first one. -/
theorem endsHelp_cases (help : List (List Char)) :
    (∀ raw ∈ help, endsHelp raw = false) ∨
      ∃ first marker later, help = first ++ marker :: later ∧
        (∀ raw ∈ first, endsHelp raw = false) ∧ endsHelp marker = true ∧
        help.dropWhile (!endsHelp ·) = marker :: later := by
  cases found : help.find? endsHelp with
  | none => exact .inl (by simpa using found)
  | some marker =>
    obtain ⟨ends, first, later, rfl, goesOn⟩ := List.find?_eq_some_iff_append.1 found
    refine .inr ⟨first, marker, later, rfl, by simpa using goesOn, ends, ?_⟩
    apply dropWhile_run goesOn
    rintro raw ⟨⟩
    rw [ends]
    rfl

theorem readAll_exampleSection {awaits inHelp : Bool}
    (inside : state.cursor = some ⟨group, name, awaits, inHelp⟩)
    (known : (state.registry.find? group name).isSome = true) (closed : state.fence = none)
    (titled : endsHelp title = true) (fenced : block.Fenced settings) :
    state.readAll settings (title :: block.lines) = .ok { state with
      registry := state.registry.update group name (·.addExample block.text)
      cursor := some (.settled group name)
      examples := state.examples + 1 } := by
  let settled : State := { state with cursor := some (.settled group name) }
  have read := @State.readAll_blocks settings settled (.settled group name) rfl known closed [block]
    (List.forall_mem_singleton.2 fenced)
  rw [List.flatMap_singleton] at read
  rw [State.readAll_cons_of_ok (State.read_subheading inside closed titled title)]
  exact read

theorem quiet_of_goesOn {registry : Registry}
    (noFence : ∀ raw ∈ help, settings.isFence (contentOf raw) = false)
    (noHeading : ∀ raw ∈ help, ¬ Heading registry (contentOf raw))
    (goesOn : ∀ raw ∈ help, endsHelp raw = false) :
    ∀ raw ∈ help, Quiet settings registry (contentOf raw) := by
  intro raw member
  have noHeading := mt isHeading_iff.1 (noHeading raw member)
  exact ⟨noFence raw member, goesOn raw member, by simpa using noHeading⟩

/-- A help text up to its first subheading. -/
theorem readAll_toSubheading (inside : state.cursor = some ⟨group, name, true, true⟩)
    (closed : state.fence = none)
    (quiet : ∀ raw ∈ help, Quiet settings state.registry (contentOf raw))
    (ends : endsHelp raw = true) (rest : List (List Char)) :
    state.readAll settings (help ++ raw :: rest) = State.readAll settings { state with
      registry := state.registry.update group name (noteUsage (usageIn (help.map contentOf)))
      cursor := some (.settled group name) } rest := by
  obtain ⟨awaits, read⟩ := State.readAll_help inside closed help quiet
  rw [State.readAll_append_of_ok read,
    State.readAll_cons_of_ok (State.read_subheading rfl (by exact closed) ends raw)]

/-- A help text without headings behind its first subheading leaves the reading under its command,
and gives it a usage line at most. -/
theorem readAll_helpText (inside : state.cursor = some ⟨group, name, true, true⟩)
    (closed : state.fence = none)
    (noFence : ∀ raw ∈ help, settings.isFence (contentOf raw) = false)
    (noHeading : ∀ raw ∈ help, ¬ Heading state.registry (contentOf raw))
    (plain : ∀ raw ∈ help.dropWhile (!endsHelp ·), headsSection raw = false) :
    ∃ usage awaits inHelp, state.readAll settings help = .ok { state with
      registry := state.registry.update group name (noteUsage usage)
      cursor := some ⟨group, name, awaits, inHelp⟩ } := by
  rcases endsHelp_cases help with goesOn | ⟨first, marker, later, rfl, goesOn, ends, behind⟩
  · obtain ⟨awaits, read⟩ :=
      State.readAll_help inside closed help (quiet_of_goesOn noFence noHeading goesOn)
    exact ⟨_, awaits, true, read⟩
  · rw [behind, List.forall_mem_cons] at plain
    rw [List.forall_mem_append, List.forall_mem_cons] at noFence noHeading
    refine ⟨usageIn (first.map contentOf), false, false, ?_⟩
    rw [readAll_toSubheading inside closed (quiet_of_goesOn noFence.1 noHeading.1 goesOn) ends]
    exact readAll_settled rfl (by exact closed) noFence.2.2 plain.2

/-- Since some point the reading has gone on to another command, or to none and without an
example. -/
def Astray (origin state : State) : Prop :=
  origin.commands < state.commands ∨
    state.cursor = none ∧ state.commands = origin.commands ∧ state.examples = origin.examples

private theorem commands_toggleFence (state : State) :
    state.toggleFence.commands = state.commands := by
  unfold State.toggleFence State.keepExample
  split
  · rfl
  · dsimp only [State.endHelp]
    split
    · rfl
    · split <;> rfl

theorem commands_of_step {line : List Char} (step : Step settings state line raw next) :
    next.commands = state.commands ∨ next.commands = state.commands + 1 ∧ state.Apart ∧
      ∃ group name command, next.cursor = some ⟨group, name, true, true⟩ ∧
        next.fence = state.fence ∧ next.registry.find? group name = some command := by
  cases step with
  | @opened group name apart known =>
    obtain ⟨command, found⟩ := Option.isSome_iff_exists.1 known
    exact .inr ⟨rfl, apart, group, name, command, rfl, rfl, found⟩
  | toggled inside => exact .inl (commands_toggleFence state)
  | left => exact .inl rfl
  | stayed => exact .inl rfl
  | noted => exact .inl rfl
  | collected => exact .inl rfl

theorem Astray.step {line : List Char} (astray : Astray origin state)
    (step : Step settings state line raw next) : Astray origin next := by
  rcases astray with further | ⟨outside, commands, examples⟩
  · rcases commands_of_step step with same | ⟨more, -⟩
    · exact .inl (same ▸ further)
    · exact .inl (by omega)
  · -- Without a cursor only a heading can lead on, and only to a further command.
    cases step with
    | left => exact .inr ⟨rfl, commands, examples⟩
    | opened => exact .inl (by dsimp only; omega)
    | stayed inside => cases outside.symm.trans inside
    | noted _ inside => cases outside.symm.trans inside
    | toggled inside => cases outside.symm.trans inside
    | collected inside => cases outside.symm.trans inside

theorem Astray.readAll (astray : Astray origin state)
    (read : state.readAll settings tail = .ok next) : Astray origin next := by
  induction tail generalizing state with
  | nil =>
    cases read
    exact astray
  | cons raw tail ih =>
    obtain ⟨middle, here, later⟩ := State.readAll_cons_eq_ok read
    exact ih (astray.step (step_read here)) later

private theorem astray_of_openCommand {heading : List Char}
    (read : state.openCommand heading = .ok next) :
    Astray state next := by
  unfold State.openCommand at read
  split at read
  · dsimp only at read
    split at read
    · cases read
      exact .inl (Nat.lt_succ_self _)
    · cases read
  · cases read
    exact .inr ⟨rfl, rfl, rfl⟩

private theorem astray_of_headsSection (inside : state.cursor = some (.settled group name))
    (closed : state.fence = none) (noFence : settings.isFence (contentOf raw) = false)
    (heads : headsSection raw = true)
    (read : state.read settings (contentOf raw) raw = .ok next) : Astray state next := by
  have settled : state.Settled := by
    refine ⟨closed, ?_⟩
    intro cursor found
    cases inside.symm.trans found
    rfl
  rw [settled.read_eq noFence] at read
  rw [headsSection, Bool.or_eq_true, startsWith_iff, startsWith_iff] at heads
  rcases heads with ⟨holder, shape⟩ | ⟨heading, shape⟩
  · rw [← shape, State.readText_group settled.inHelp_eq_false] at read
    cases read
    exact .inr ⟨rfl, rfl, rfl⟩
  · rw [← shape, State.readText_command settled.inHelp_eq_false] at read
    exact astray_of_openCommand read

private theorem astray_of_readAll (inside : state.cursor = some (.settled group name))
    (closed : state.fence = none)
    (noFence : ∀ raw ∈ help, settings.isFence (contentOf raw) = false)
    (heads : ∃ raw ∈ help, headsSection raw = true)
    (read : state.readAll settings (help ++ tail) = .ok next) : Astray state next := by
  induction help with
  | nil =>
    obtain ⟨raw, member, -⟩ := heads
    cases member
  | cons raw help ih =>
    rw [List.forall_mem_cons] at noFence
    obtain ⟨middle, here, later⟩ := State.readAll_cons_eq_ok read
    cases first : headsSection raw with
    | true => exact (astray_of_headsSection inside closed noFence.1 first here).readAll later
    | false =>
      rw [read_settled inside closed noFence.1 first] at here
      cases here
      simp only [List.exists_mem_cons_iff, first, Bool.false_eq_true, false_or] at heads
      exact ih noFence.2 heads later

/-- A heading behind the first subheading of a help text leads away from the command. -/
theorem astray_of_helpText (inside : state.cursor = some ⟨group, name, true, true⟩)
    (closed : state.fence = none)
    (noFence : ∀ raw ∈ help, settings.isFence (contentOf raw) = false)
    (noHeading : ∀ raw ∈ help, ¬ Heading state.registry (contentOf raw))
    (heads : ∃ raw ∈ help.dropWhile (!endsHelp ·), headsSection raw = true)
    (read : state.readAll settings (help ++ tail) = .ok next) : Astray state next := by
  rcases endsHelp_cases help with goesOn | ⟨first, marker, later, rfl, goesOn, ends, behind⟩
  · have none : help.dropWhile (!endsHelp ·) = [] := by simpa using goesOn
    rw [none] at heads
    obtain ⟨raw, member, -⟩ := heads
    cases member
  · rw [List.forall_mem_append, List.forall_mem_cons] at noFence noHeading
    have marked : headsSection marker = false := by
      rw [headsSection, startsWith_eq_false_of_apart ends (by decide),
        startsWith_eq_false_of_apart ends (by decide)]
      rfl
    rw [behind] at heads
    simp only [List.exists_mem_cons_iff, marked, Bool.false_eq_true, false_or] at heads
    rw [List.append_assoc, List.cons_append,
      readAll_toSubheading inside closed (quiet_of_goesOn noFence.1 noHeading.1 goesOn) ends] at read
    -- The state behind the subheading has the counters that `state` has.
    have astray := astray_of_readAll rfl (by exact closed) noFence.2.2 heads read
    exact astray

/-- A help text with headings of its own, between the heading of a command and its first example,
has no effect but for the usage line, exactly if none of its lines from the first subheading on
begins as a heading of a group or command. As in every reading of a document, no example is open
before the heading unless it belongs to a command. -/
theorem readAll_helpText_iff {before reading : Reading} {heading : List Char}
    (body : before.region = .body)
    (kept : before.outline.fence.isSome = true → before.outline.cursor.isSome = true)
    (accepted : before.read settings heading = .ok reading)
    (counted : reading.outline.commands = before.outline.commands + 1)
    (noFence : ∀ raw ∈ help, settings.isFence (contentOf raw) = false)
    (noHeading : ∀ raw ∈ help, ¬ Heading reading.outline.registry (contentOf raw))
    (titled : endsHelp title = true) (fenced : block.Fenced settings) :
    ∃ group name command grown,
      reading.outline.cursor = some ⟨group, name, true, true⟩ ∧ reading.outline.fence = none ∧
      reading.outline.registry.find? group name = some command ∧
      grown.find? group name = some (command.addExample block.text) ∧
      Registry.Replaced group command (command.addExample block.text) reading.outline.registry
        grown ∧
      reading.readAll settings (title :: block.lines) =
        .ok ⟨.body, reading.requirements, ⟨grown, reading.outline.group,
          some (.settled group name), none, reading.outline.examples + 1, reading.outline.commands⟩⟩ ∧
      ((∃ usage cursor, reading.readAll settings (help ++ title :: block.lines) =
          .ok ⟨.body, reading.requirements, ⟨grown.update group name (noteUsage usage),
            reading.outline.group, cursor, none, reading.outline.examples + 1,
            reading.outline.commands⟩⟩) ↔
        ∀ raw ∈ help.dropWhile (!endsHelp ·), headsSection raw = false) := by
  obtain ⟨region, requirements, origin⟩ := before
  subst body
  obtain ⟨state, read, rfl⟩ := Reading.readOutline_eq_ok accepted
  rcases commands_of_step (step_read read) with same |
    ⟨-, apart, group, name, command, inside, fence, found⟩
  · exact absurd (counted.symm.trans same) (Nat.succ_ne_self _)
  have closed : state.fence = none := fence.trans (apart.closed kept)
  have known := Option.isSome_iff_exists.2 ⟨command, found⟩
  have keeps (other : Command) : (other.addExample block.text).name = other.name := rfl
  have added := readAll_exampleSection inside known closed titled fenced
  refine ⟨group, name, command, _, inside, closed, found, ?_, Registry.replaced_update _ found _, ?_, ?_⟩
  · rw [Registry.find?_update _ keeps, found]
    rfl
  · rw [Reading.readAll_body, added, ← closed]
    rfl
  · rw [Reading.readAll_body]
    constructor
    · rintro ⟨usage, cursor, read⟩
      by_contra heads
      have heads : ∃ raw ∈ help.dropWhile (!endsHelp ·), headsSection raw = true := by
        simpa using heads
      cases done : state.readAll settings (help ++ title :: block.lines) with
      | error error =>
        rw [done] at read
        cases read
      | ok final =>
        have astray := astray_of_helpText inside closed noFence noHeading heads done
        rw [done] at read
        cases read
        -- The counters tell the two readings apart.
        rcases astray with further | ⟨-, -, examples⟩
        · exact Nat.lt_irrefl _ further
        · exact Nat.succ_ne_self _ examples
    · intro plain
      obtain ⟨usage, awaits, inHelp, read⟩ := readAll_helpText inside closed noFence noHeading plain
      have noted := state.registry.update_update group name (noteUsage usage)
        (·.addExample block.text) fun _ => rfl
      have added := state.registry.update_update group name (·.addExample block.text)
        (noteUsage usage) fun _ => rfl
      have stillKnown : ((state.registry.update group name (noteUsage usage)).find? group
          name).isSome = true := by
        have keeps (other : Command) : (noteUsage usage other).name = other.name := rfl
        exact (Registry.isSome_find?_update _ keeps group name group name).trans known
      refine ⟨usage, some (.settled group name), ?_⟩
      rw [State.readAll_append_of_ok read,
        readAll_exampleSection rfl stillKnown (by exact closed) titled fenced, added]
      dsimp only
      rw [noted, closed]
      rfl

/-- A help text with a usage line, headings of all levels and a subheading. -/
def notedHelp : List (List Char) :=
  ["\n".toList, "`/a x`\n".toList, "### Notes\n".toList, "#### `more`\n".toList,
    "##### Details\r\n".toList, "##### Examples\n".toList]

def shortBlock : ExampleBlock := ⟨"```\n".toList, ["x\n".toList], "```\n".toList, []⟩

theorem readAll_helpText_noted :
    Reading.read .standard ⟨.body, [], ⟨⟨[⟨"G", [.ofName "a"]⟩]⟩, some "G", none, none, 0, 0⟩⟩
      "#### `/a`\n".toList = .ok underHeading ∧
    (∀ raw ∈ notedHelp, Settings.standard.isFence (contentOf raw) = false) ∧
    (∀ raw ∈ notedHelp, ¬ Heading ⟨[⟨"G", [.ofName "a"]⟩]⟩ (contentOf raw)) ∧
    ∃ (grown : Registry) (usage : Option (List Char)) (cursor : Option Cursor),
      grown.find? "G" "a" = some { Command.ofName "a" with examples := ["x\n"] } ∧
      underHeading.readAll .standard (notedHelp ++ "##### Examples\n".toList :: shortBlock.lines) =
        .ok ⟨.body, [], ⟨grown.update "G" "a" (noteUsage usage), some "G", cursor, none, 1, 1⟩⟩ := by
  have accepted : Reading.read .standard
      ⟨.body, [], ⟨⟨[⟨"G", [.ofName "a"]⟩]⟩, some "G", none, none, 0, 0⟩⟩ "#### `/a`\n".toList =
      .ok underHeading := by
    decide +kernel
  have noFence : ∀ raw ∈ notedHelp, Settings.standard.isFence (contentOf raw) = false := by
    decide +kernel
  have noHeading : ∀ raw ∈ notedHelp, ¬ Heading ⟨[⟨"G", [.ofName "a"]⟩]⟩ (contentOf raw) := by
    decide +kernel
  have titled : endsHelp "##### Examples\n".toList = true := by decide +kernel
  have fenced : shortBlock.Fenced .standard := by decide +kernel
  obtain ⟨group, name, command, grown, inside, -, found, added, -, -, same⟩ :=
    readAll_helpText_iff rfl (by decide) accepted rfl noFence noHeading titled fenced
  cases inside
  cases found
  obtain ⟨usage, cursor, read⟩ := same.2 (by decide +kernel)
  exact ⟨accepted, noFence, noHeading, grown, usage, cursor, added, read⟩

/-- Behind a subheading, a heading of a group drops the example, and one of a command that is not
in the registry is an error. -/
theorem recover_headingBelowNotes :
    recover .standard ⟨[⟨"G", [.ofName "a"]⟩]⟩
      "## Requirements\n## Commands\n### G\n#### `/a`\n##### Examples\n```\nx\n```\n" =
        .ok ⟨⟨[⟨"G", [{ Command.ofName "a" with examples := ["x\n"] }]⟩]⟩, "", 1, 1⟩ ∧
    recover .standard ⟨[⟨"G", [.ofName "a"]⟩]⟩
      ("## Requirements\n## Commands\n### G\n#### `/a`\n" ++
        "##### Notes\n### Details\n##### Examples\n```\nx\n```\n") =
        .ok ⟨⟨[⟨"G", [.ofName "a"]⟩]⟩, "", 0, 1⟩ ∧
    recover .standard ⟨[⟨"G", [.ofName "a"]⟩]⟩
      ("## Requirements\n## Commands\n### G\n#### `/a`\n" ++
        "##### Notes\n#### `sum`\n##### Examples\n```\nx\n```\n") =
        .error (⟨"G", "sum"⟩, ⟨[⟨"G", [.ofName "a"]⟩]⟩) := by
  decide +kernel

end CommandReference.Document
