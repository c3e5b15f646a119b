import CommandReference.Proofs.Document.Parts

/-! Reading back a whole document. What stands before the requirements is passed over,
the requirements are kept line by line, and the rest is the outline. -/
namespace CommandReference.Document
open Text Outline

/-- Takes in the next line. An error comes with the registry as it is then. -/
def Reading.take (settings : Settings) (reading : Reading) (raw : List Char) :
    Except (UnknownCommand × Registry) Reading :=
  (reading.read settings raw).mapError fun failed => (failed.1, failed.2.outline.registry)

def Reading.readAll (settings : Settings) (reading : Reading) (raws : List (List Char)) :
    Except (UnknownCommand × Registry) Reading :=
  raws.foldlM (Reading.take settings) reading

theorem recover_eq (settings : Settings) (registry : Registry) (document : String) :
    recover settings registry document =
      ((Reading.start registry).readAll settings (rawLines document.toList) >>= fun final =>
        return final.finish) := rfl

theorem Reading.take_eq_ok_iff {settings : Settings} {reading next : Reading} {raw : List Char} :
    reading.take settings raw = .ok next ↔ reading.read settings raw = .ok next := by
  rw [Reading.take]
  cases reading.read settings raw with
  | error failed => simp [Except.mapError]
  | ok reached => simp [Except.mapError]

theorem Reading.readAll_cons_of_ok {settings : Settings} {reading next : Reading}
    {raw : List Char} (read : reading.read settings raw = .ok next) (raws : List (List Char)) :
    reading.readAll settings (raw :: raws) = next.readAll settings raws :=
  foldlM_cons_of_ok (Reading.take_eq_ok_iff.2 read) raws

theorem Reading.readAll_append_of_ok {settings : Settings} {reading next : Reading}
    {first : List (List Char)} (read : reading.readAll settings first = .ok next)
    (second : List (List Char)) :
    reading.readAll settings (first ++ second) = next.readAll settings second :=
  foldlM_append_of_ok read second

/-- After the requirements a line belongs to the outline. -/
theorem Reading.take_body (settings : Settings) (requirements : List Char) (state : State)
    (raw : List Char) :
    (Reading.mk .body requirements state).take settings raw =
      (state.take settings raw).map (Reading.mk .body requirements) := by
  rw [Reading.take, State.take, Reading.read, Reading.readOutline]
  cases state.read settings (contentOf raw) raw with
  | error failed => rfl
  | ok next => rfl

theorem Reading.readAll_body (settings : Settings) (requirements : List Char) (state : State)
    (raws : List (List Char)) :
    (Reading.mk .body requirements state).readAll settings raws =
      (state.readAll settings raws).map (Reading.mk .body requirements) :=
  (foldlM_map_eq (fun state raw => (take_body settings requirements state raw).symm) raws
    state).symm

theorem startsWith_false_of_isPrefix {start longer : String}
    (inside : start.toList <+: longer.toList)
    {line raw : List Char} (part : line <+: raw) (plain : startsWith start raw = false) :
    startsWith longer line = false := by
  by_contra begins
  have begins : longer.toList <+: line := startsWith_iff.1 (by simpa using begins)
  have start := startsWith_iff.2 ((inside.trans begins).trans part)
  rw [plain] at start
  cases start

/-- Before the requirements, lines without two number signs at their start do nothing. -/
theorem Reading.readAll_preamble (settings : Settings) (registry : Registry)
    (raws : List (List Char)) (plain : ∀ raw ∈ raws, startsWith "##" raw = false) :
    (Reading.start registry).readAll settings raws = .ok (Reading.start registry) := by
  induction raws with
  | nil => rfl
  | cons raw raws ih =>
    have here := plain raw List.mem_cons_self
    have part := contentOf_isPrefix raw
    have noStart : startsWith "## Requirements" (contentOf raw) = false :=
      startsWith_false_of_isPrefix (by decide) part here
    have skipped : (Reading.start registry).outline.read settings (contentOf raw) raw =
        .ok (Reading.start registry).outline :=
      State.read_plain settings rfl (startsWith_false_of_isPrefix (by decide) part here)
        (startsWith_false_of_isPrefix (by decide) part here) raw
    have read : (Reading.start registry).read settings raw = .ok (Reading.start registry) := by
      have outline : (Reading.start registry).read settings raw =
          (Reading.start registry).readOutline settings raw :=
        if_neg (by rw [noStart]; exact Bool.false_ne_true)
      rw [outline, Reading.readOutline, skipped]
      rfl
    rw [Reading.readAll_cons_of_ok read]
    exact ih fun other member => plain other (List.mem_cons_of_mem _ member)

/-- A line of the requirements that is kept. -/
@[mk_iff]
structure Prose (line : List Char) : Prop where
  oneLine : '\n' ∉ line
  nonblank : trim line ≠ []
  noHeading : startsWith "## " line = false

instance (line : List Char) : Decidable (Prose line) :=
  decidable_of_iff _ (prose_iff line).symm

/-- Requirements made of these lines. -/
def requirementsOf (lines : List (List Char)) : String :=
  String.ofList (lines.flatMap (· ++ ['\n']))

private theorem rawLines_requirementsOf (lines : List (List Char))
    (prose : ∀ line ∈ lines, Prose line) :
    rawLines (requirementsOf lines).toList = lines.map (· ++ ['\n']) := by
  rw [requirementsOf, String.toList_ofList]
  exact rawLines_flatMap lines fun line member => (prose line member).oneLine

theorem trim_contentOf_ne_nil {line : List Char} (nonblank : trim line ≠ []) :
    trim (contentOf line) ≠ [] := by
  intro blank
  apply nonblank
  rw [trim_eq_nil_iff] at blank ⊢
  intro c member
  obtain ⟨dropped, shape, breaks⟩ := exists_append_dropEndWhile (fun c => c = '\n' || c = '\r') line
  rw [shape, List.mem_append] at member
  rcases member with kept | member
  · exact blank c kept
  · have isBreak := breaks c member
    rw [Bool.or_eq_true, decide_eq_true_eq, decide_eq_true_eq] at isBreak
    rcases isBreak with rfl | rfl <;> decide

theorem Reading.read_prose (settings : Settings) (kept : List Char) (state : State)
    {line : List Char} (prose : Prose line) :
    (Reading.mk .requirements kept state).read settings (line ++ ['\n']) =
      .ok ⟨.requirements, kept ++ (line ++ ['\n']), state⟩ := by
  have noHeading : startsWith "## " (contentOf line) = false :=
    startsWith_false_of_isPrefix (List.prefix_refl _) (contentOf_isPrefix line) prose.noHeading
  rw [Reading.read, contentOf_concat]
  simp only [noHeading, trim_contentOf_ne_nil prose.nonblank, Bool.false_eq_true, if_false]
  rfl

/-- The lines of the requirements are kept in order. -/
theorem Reading.readAll_prose (settings : Settings) (kept : List Char) (state : State)
    (lines : List (List Char)) (prose : ∀ line ∈ lines, Prose line) :
    (Reading.mk .requirements kept state).readAll settings (lines.map (· ++ ['\n'])) =
      .ok ⟨.requirements, kept ++ lines.flatMap (· ++ ['\n']), state⟩ := by
  induction lines generalizing kept with
  | nil =>
    rw [List.flatMap_nil, List.append_nil]
    rfl
  | cons line lines ih =>
    rw [List.map_cons,
      Reading.readAll_cons_of_ok
        (Reading.read_prose settings kept state (prose line List.mem_cons_self)),
      ih _ fun other member => prose other (List.mem_cons_of_mem _ member), List.flatMap_cons,
      List.append_assoc]

theorem Reading.readAll_blanks (settings : Settings) (kept : List Char) (state : State)
    (count : Nat) :
    (Reading.mk .requirements kept state).readAll settings (List.replicate count ['\n']) =
      .ok ⟨.requirements, kept, state⟩ := by
  have blank : (Reading.mk .requirements kept state).read settings ['\n'] =
      .ok ⟨.requirements, kept, state⟩ := rfl
  induction count with
  | zero => rfl
  | succ count ih => rw [List.replicate_succ, Reading.readAll_cons_of_ok blank, ih]

/-- Settings whose title and description are not taken for headings of the outline. -/
@[mk_iff]
structure Presentable (settings : Settings) : Prop where
  title : ∀ line ∈ (rawLines settings.title.toList).tail, startsWith "##" line = false
  description : ∀ line ∈ rawLines settings.description.toList, startsWith "##" line = false

instance (settings : Settings) : Decidable (Presentable settings) :=
  decidable_of_iff _ (presentable_iff settings).symm

theorem standard_presentable : Presentable .standard := by decide +kernel

theorem startsWith_concat {start : String} (noFeed : '\n' ∉ start.toList) {line : List Char}
    (plain : startsWith start line = false) : startsWith start (line ++ ['\n']) = false := by
  by_contra begins
  have begins := startsWith_iff.1 (by simpa using begins)
  have inside := startsWith_iff.2 (prefix_of_concat begins noFeed)
  rw [plain] at inside
  cases inside

private theorem plain_description {settings : Settings} (presentable : Presentable settings) :
    ∀ raw ∈ rawLines (settings.description.toList ++ ['\n']), startsWith "##" raw = false := by
  intro raw member
  rw [rawLines_concat] at member
  rcases mem_closeLast member with inside | rfl | ⟨line, inside, rfl⟩
  · exact presentable.description raw inside
  · rfl
  · exact startsWith_concat (by decide) (presentable.description line inside)

private theorem plain_title {settings : Settings} (presentable : Presentable settings) :
    ∀ raw ∈ rawLines ("# ".toList ++ (settings.title.toList ++ ['\n'])),
      startsWith "##" raw = false := by
  intro raw member
  cases lines : rawLines (settings.title.toList ++ ['\n']) with
  | nil => exact absurd (rawLines_concat _ ▸ lines) (closeLast_ne_nil _)
  | cons first later =>
    rw [rawLines_lengthened (by decide) lines, List.mem_cons] at member
    rcases member with rfl | member
    · rfl
    · have inTail : raw ∈ (closeLast (rawLines settings.title.toList)).tail := by
        rw [← rawLines_concat, lines]
        exact member
      rcases mem_tail_closeLast inTail with inside | rfl | ⟨line, inside, rfl⟩
      · exact presentable.title raw inside
      · rfl
      · exact startsWith_concat (by decide) (presentable.title line inside)

theorem not_mem_joined {separator : String} {c : Char} (apart : c ∉ separator.toList)
    (texts : List String) (absent : ∀ text ∈ texts, c ∉ text.toList) :
    c ∉ (joined separator texts).toList := by
  induction texts with
  | nil => simp [joined]
  | cons text texts ih =>
    have here := absent text List.mem_cons_self
    have later := ih fun other member => absent other (List.mem_cons_of_mem _ member)
    cases texts with
    | nil => simpa [joined] using here
    | cons next texts =>
      rw [joined, String.intercalate_cons_cons, String.toList_append, String.toList_append,
        List.mem_append, List.mem_append, not_or, not_or]
      exact ⟨⟨here, apart⟩, later⟩

/-- The index has no line with two number signs at its start. -/
theorem plain_index (groups : List Group)
    (oneLine : ∀ group ∈ groups, '\n' ∉ group.name.toList)
    (commandsOneLine : ∀ group ∈ groups, ∀ command ∈ group.commands, '\n' ∉ command.name.toList) :
    ∀ raw ∈ rawLines ((concat (groups.map indexEntry)).toList ++ sectionGap.toList),
      startsWith "##" raw = false := by
  induction groups with
  | nil => decide
  | cons group groups ih =>
    have later := ih (fun other member => oneLine other (List.mem_cons_of_mem _ member))
      fun other member => commandsOneLine other (List.mem_cons_of_mem _ member)
    let body := "- ".toList ++ (group.name ++ " (" ++ joined ", " group.commandNames ++ ")").toList
    have apart : '\n' ∉ ", ".toList := by decide
    have names : '\n' ∉ (joined ", " group.commandNames).toList := by
      apply not_mem_joined apart
      simpa [Group.commandNames] using commandsOneLine group List.mem_cons_self
    have noBreak : '\n' ∉ body := by
      simp [body, names, oneLine group List.mem_cons_self]
    -- The line feed before the next entry, or of the gap, ends the line of this entry.
    obtain ⟨rest, shape⟩ : ∃ rest, (concat (groups.map indexEntry)).toList ++ sectionGap.toList =
        '\n' :: rest := by
      cases groups with
      | nil => exact ⟨_, rfl⟩
      | cons next groups => simp [toList_concat, indexEntry]
    have whole : (concat ((group :: groups).map indexEntry)).toList ++ sectionGap.toList =
        '\n' :: (body ++ '\n' :: rest) := by
      rw [← shape, List.map_cons, toList_concat, List.flatMap_cons, ← toList_concat]
      simp [indexEntry, body]
    rw [whole, rawLines_break, rawLines_line noBreak]
    rw [shape, rawLines_break] at later
    intro raw member
    rw [List.mem_cons, List.mem_cons] at member
    rcases member with rfl | rfl | member
    · rfl
    · rfl
    · exact later raw (List.mem_cons_of_mem _ member)

/-- The document up to the heading of the requirements. -/
def preface (settings : Settings) (registry : Registry) : String :=
  "# " ++ settings.title ++ "\n\n" ++ settings.description ++ "\n\n" ++
  concat ((registry.groups.filter (!settings.isExcluded ·.name)).map indexEntry) ++ sectionGap

theorem render_eq (settings : Settings) (requirements : String) (registry : Registry) :
    render settings requirements registry =
      preface settings registry ++ "## Requirements\n\n" ++ requirements ++ sectionGap ++
        "## Commands\n\n" ++ concat (registry.groups.map (groupSection settings)) := rfl

theorem ended_preface (settings : Settings) (registry : Registry) :
    Ended (preface settings registry).toList := by
  rw [preface, String.toList_append]
  exact Ended.append_left (by decide) (by decide) _

/-- The lines of a document. The first line feed of the gap behind the requirements ends their
last line, if nothing else does. -/
theorem rawLines_render_eq (settings : Settings) (requirements : String) (registry : Registry) :
    rawLines (render settings requirements registry).toList =
      rawLines (preface settings registry).toList ++
        ("## Requirements".toList ++ ['\n']) :: ['\n'] ::
          (rawLines (requirements.toList ++ ['\n']) ++ (List.replicate 5 ['\n'] ++
            ("## Commands".toList ++ ['\n']) :: ['\n'] ::
              rawLines (concat (registry.groups.map (groupSection settings))).toList)) := by
  let sections := concat (registry.groups.map (groupSection settings))
  have shape : (render settings requirements registry).toList =
      (preface settings registry).toList ++ ("## Requirements".toList ++ '\n' :: '\n' ::
        ((requirements.toList ++ ['\n']) ++ (List.replicate 5 '\n' ++ ("## Commands".toList ++
          '\n' :: '\n' :: sections.toList)))) := by
    have opening : "## Requirements\n\n".toList = "## Requirements".toList ++ ['\n', '\n'] := rfl
    have commands : "## Commands\n\n".toList = "## Commands".toList ++ ['\n', '\n'] := rfl
    have gap : sectionGap.toList = '\n' :: List.replicate 5 '\n' := rfl
    rw [render_eq]
    simp only [String.toList_append, opening, commands, gap, List.append_assoc, List.cons_append,
      List.nil_append, sections]
  have gap (rest : List Char) :
      rawLines (List.replicate 5 '\n' ++ rest) = List.replicate 5 ['\n'] ++ rawLines rest := rfl
  have commands : rawLines ("## Commands".toList ++ '\n' :: '\n' :: sections.toList) =
      ("## Commands".toList ++ ['\n']) :: ['\n'] :: rawLines sections.toList := by
    rw [rawLines_line (by decide), rawLines_break]
  rw [shape, rawLines_append (ended_preface settings registry), rawLines_line (by decide),
    rawLines_break, rawLines_append (ended_concat _), gap, commands]

theorem plain_preface {settings : Settings} (presentable : Presentable settings)
    {registry : Registry} (oneLine : ∀ group ∈ registry.groups, '\n' ∉ group.name.toList)
    (commandsOneLine : ∀ group ∈ registry.groups, ∀ command ∈ group.commands,
      '\n' ∉ command.name.toList) :
    ∀ raw ∈ rawLines (preface settings registry).toList, startsWith "##" raw = false := by
  let shown := registry.groups.filter (!settings.isExcluded ·.name)
  have shape : (preface settings registry).toList =
      ("# ".toList ++ (settings.title.toList ++ ['\n'])) ++ (['\n'] ++
        ((settings.description.toList ++ ['\n']) ++ (['\n'] ++
          ((concat (shown.map indexEntry)).toList ++ sectionGap.toList)))) := by
    simp [preface, shown]
  have index := plain_index shown
    (fun group member => oneLine group (List.mem_of_mem_filter member))
    fun group member => commandsOneLine group (List.mem_of_mem_filter member)
  have lineFeed : Ended ['\n'] := by decide
  rw [shape, rawLines_append ((ended_concat _).append_left (by simp) _),
    rawLines_append lineFeed, rawLines_append (ended_concat _), rawLines_append lineFeed]
  intro raw member
  simp only [List.mem_append] at member
  rcases member with title | blank | description | blank | member
  · exact plain_title presentable raw title
  · rw [List.mem_singleton.1 blank]
    rfl
  · exact plain_description presentable raw description
  · rw [List.mem_singleton.1 blank]
    rfl
  · exact index raw member

/-- A rendered document whose preface is passed over is read back as the steps of its sections. -/
theorem recover_render_of_preface {settings : Settings} (valid : settings.validate = .ok settings)
    {old new : Registry} {start : State} (settled : start.Settled)
    (before : (Reading.start new).readAll settings (rawLines (preface settings old).toList) =
      .ok ⟨.preamble, [], start⟩)
    (headable : ∀ group ∈ old.groups, Headable group.name)
    (readable : ∀ group ∈ old.groups, ∀ command ∈ group.commands,
      Readable settings start.registry command)
    (lines : List (List Char)) (prose : ∀ line ∈ lines, Prose line) :
    recover settings new (render settings (requirementsOf lines) old) =
      ((old.groups.map headedGroup).foldlM (attachGroup settings) start).map fun final =>
        { registry := final.registry
          requirements := requirementsOf lines
          examples := final.examples
          commands := final.commands } := by
  let text := lines.flatMap (· ++ ['\n'])
  let sections := concat (old.groups.map (groupSection settings))
  have shape : (render settings (requirementsOf lines) old).toList =
      (preface settings old).toList ++ ("## Requirements".toList ++ '\n' :: '\n' ::
        ((requirementsOf lines).toList ++ (sectionGap.toList ++ ("## Commands".toList ++
          '\n' :: '\n' :: sections.toList)))) := by
    have requirements : "## Requirements\n\n".toList =
        "## Requirements".toList ++ ['\n', '\n'] := rfl
    have commands : "## Commands\n\n".toList = "## Commands".toList ++ ['\n', '\n'] := rfl
    rw [render_eq, String.toList_append, String.toList_append, String.toList_append,
      String.toList_append, String.toList_append, requirements, commands]
    simp only [List.append_assoc, List.cons_append, List.nil_append, sections]
  have kept : (Reading.mk .requirements [] start).readAll settings
      (rawLines (requirementsOf lines).toList) = .ok ⟨.requirements, text, start⟩ := by
    rw [rawLines_requirementsOf lines prose]
    exact Reading.readAll_prose settings [] start lines prose
  have gap : (Reading.mk .requirements text start).readAll settings (rawLines sectionGap.toList) =
      .ok ⟨.requirements, text, start⟩ :=
    Reading.readAll_blanks settings text start 6
  have proseEnded : Ended (requirementsOf lines).toList := by
    rw [requirementsOf, String.toList_ofList]
    exact ended_flatMap _ _ fun _ _ => ended_concat _
  have opening : (Reading.mk .preamble [] start).read settings
      ("## Requirements".toList ++ ['\n']) = .ok ⟨.requirements, [], start⟩ := rfl
  have blank : (Reading.mk .requirements [] start).read settings ['\n'] =
      .ok ⟨.requirements, [], start⟩ := rfl
  have ending : (Reading.mk .requirements text start).read settings
      ("## Commands".toList ++ ['\n']) =
      .ok ⟨.body, text, start⟩ := rfl
  rw [recover_eq, shape, rawLines_append (ended_preface settings old), Reading.readAll_append_of_ok before,
    rawLines_line (by decide), rawLines_break, Reading.readAll_cons_of_ok opening,
    Reading.readAll_cons_of_ok blank, rawLines_append proseEnded,
    Reading.readAll_append_of_ok kept, rawLines_append (by decide),
    Reading.readAll_append_of_ok gap, rawLines_line (by decide), rawLines_break,
    Reading.readAll_cons_of_ok ending, Reading.readAll_body,
    State.readAll_cons_of_ok (start.read_blank settings settled.closed),
    readAll_sections valid old.groups settled headable readable]
  cases (old.groups.map headedGroup).foldlM (attachGroup settings) start with
  | error error => rfl
  | ok final => rfl

/-- A rendered document is read back as the steps of its sections. -/
theorem recover_render_eq {settings : Settings} (valid : settings.validate = .ok settings)
    (presentable : Presentable settings) {old new : Registry}
    (headable : ∀ group ∈ old.groups, Headable group.name)
    (readable : ∀ group ∈ old.groups, ∀ command ∈ group.commands, Readable settings new command)
    (lines : List (List Char)) (prose : ∀ line ∈ lines, Prose line) :
    recover settings new (render settings (requirementsOf lines) old) =
      ((old.groups.map headedGroup).foldlM (attachGroup settings)
          ⟨new, none, none, none, 0, 0⟩).map fun final =>
        { registry := final.registry
          requirements := requirementsOf lines
          examples := final.examples
          commands := final.commands } := by
  have before := Reading.readAll_preamble settings new _ (plain_preface presentable
    (fun group member => (headable group member).oneLine)
    fun group member command inside => (readable group member command inside).oneLine)
  have settled : (State.mk new none none none 0 0).Settled := ⟨rfl, by rintro cursor ⟨⟩⟩
  exact recover_render_of_preface valid settled before headable readable lines prose

end CommandReference.Document
