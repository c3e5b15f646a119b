import CommandReference.Document.Recover
import CommandReference.Proofs.Command.Places
import CommandReference.Proofs.Text.Lines
import CommandReference.Proofs.Text.Part

/-! What the lines of an outline do to its state: blank lines, headings, the lines
between a command heading and the heading of its examples, and fenced examples. Where
no fence is open and no help text is being read the state is called settled; every part
of an outline begins and ends there. -/
namespace CommandReference
open Text

theorem Settings.startsWith_of_isFence {settings : Settings} {line : List Char}
    (isFence : settings.isFence line = true) : startsWith fence line = true := by
  rw [Settings.isFence] at isFence
  cases found : after? fence line with
  | none => simp [found] at isFence
  | some tag => simp [startsWith, found]

private theorem Settings.isFence_of_blank (settings : Settings) {line : List Char}
    (blank : trim line = []) : settings.isFence line = false := by
  by_contra isFence
  have begins := startsWith_of_isFence (by simpa using isFence)
  have other : startsWith fence line = false :=
    startsWith_eq_false_of_blank (c := '`') (by decide) (by decide) blank
  rw [other] at begins
  cases begins

def Document.addExamples (texts : List String) (command : Command) : Command :=
  { command with examples := command.examples ++ texts }

section Fold

variable {ε σ α : Type} {step : σ → α → Except ε σ} {state next : σ}

theorem foldlM_cons_of_ok {item : α} (done : step state item = .ok next) (items : List α) :
    (item :: items).foldlM step state = items.foldlM step next := by
  rw [List.foldlM_cons, done]
  rfl

theorem foldlM_append_of_ok {first : List α} (done : first.foldlM step state = .ok next)
    (second : List α) : (first ++ second).foldlM step state = second.foldlM step next := by
  rw [List.foldlM_append, done]
  rfl

theorem exists_of_foldlM_append {first second : List α}
    (done : (first ++ second).foldlM step state = .ok next) :
    ∃ middle, first.foldlM step state = .ok middle ∧ second.foldlM step middle = .ok next := by
  rw [List.foldlM_append] at done
  cases reached : first.foldlM step state with
  | error error =>
    rw [reached] at done
    cases done
  | ok middle =>
    rw [reached] at done
    exact ⟨middle, rfl, done⟩

theorem exists_of_foldlM_cons {item : α} {items : List α}
    (done : (item :: items).foldlM step state = .ok next) :
    ∃ middle, step state item = .ok middle ∧ items.foldlM step middle = .ok next := by
  rw [List.foldlM_cons] at done
  cases first : step state item with
  | error error =>
    rw [first] at done
    cases done
  | ok middle =>
    rw [first] at done
    exact ⟨middle, rfl, done⟩

/-- Two folds that agree step by step up to a view agree in the end. -/
theorem foldlM_map_eq {τ : Type} {image : τ → α → Except ε τ} {view : σ → τ}
    (same : ∀ state item, (step state item).map view = image (view state) item)
    (items : List α) (state : σ) :
    (items.foldlM step state).map view = items.foldlM image (view state) := by
  induction items generalizing state with
  | nil => rfl
  | cons item items ih =>
    rw [List.foldlM_cons, List.foldlM_cons, ← same]
    cases step state item with
    | error error => rfl
    | ok next => exact ih next

end Fold

namespace Outline
open Document

/-- Takes in the next line. An error comes with the registry as it is then. -/
def State.take (settings : Settings) (state : State) (raw : List Char) :
    Except (UnknownCommand × Registry) State :=
  (state.read settings (contentOf raw) raw).mapError fun failed => (failed.1, failed.2.registry)

/-- Takes in lines one after the other. -/
def State.readAll (settings : Settings) (state : State) (raws : List (List Char)) :
    Except (UnknownCommand × Registry) State :=
  raws.foldlM (State.take settings) state

theorem State.take_eq_ok_iff {settings : Settings} {state next : State} {raw : List Char} :
    state.take settings raw = .ok next ↔ state.read settings (contentOf raw) raw = .ok next := by
  rw [State.take]
  cases state.read settings (contentOf raw) raw with
  | error failed => simp [Except.mapError]
  | ok reached => simp [Except.mapError]

theorem State.readAll_append (settings : Settings) (state : State)
    (first second : List (List Char)) :
    state.readAll settings (first ++ second) =
      (state.readAll settings first >>= fun next => next.readAll settings second) :=
  List.foldlM_append

theorem State.readAll_cons_of_ok {settings : Settings} {state next : State} {raw : List Char}
    (read : state.read settings (contentOf raw) raw = .ok next) (raws : List (List Char)) :
    state.readAll settings (raw :: raws) = next.readAll settings raws :=
  foldlM_cons_of_ok (State.take_eq_ok_iff.2 read) raws

theorem State.readAll_append_of_ok {settings : Settings} {state next : State}
    {first : List (List Char)} (read : state.readAll settings first = .ok next)
    (second : List (List Char)) :
    state.readAll settings (first ++ second) = next.readAll settings second :=
  foldlM_append_of_ok read second

theorem State.readAll_cons_eq_ok {settings : Settings} {state next : State} {raw : List Char}
    {raws : List (List Char)} (read : state.readAll settings (raw :: raws) = .ok next) :
    ∃ middle, state.read settings (contentOf raw) raw = .ok middle ∧
      middle.readAll settings raws = .ok next := by
  obtain ⟨middle, first, later⟩ := exists_of_foldlM_cons read
  exact ⟨middle, State.take_eq_ok_iff.1 first, later⟩

/-- The cursor after the examples of a command. -/
def Cursor.settled (group command : String) : Cursor := ⟨group, command, false, false⟩

/-- No fence is open and no help text is being read. -/
structure State.Settled (state : State) : Prop where
  closed : state.fence = none
  quiet : ∀ cursor ∈ state.cursor, cursor = .settled cursor.group cursor.command

theorem contentOf_concat (cs : List Char) : contentOf (cs ++ ['\n']) = contentOf cs :=
  List.rdropWhile_concat_pos _ cs _ rfl

theorem contentOf_isPrefix (raw : List Char) : contentOf raw <+: raw := List.rdropWhile_prefix _ raw

/-- Below a command heading, a line that is neither a fence nor a heading of the outline. -/
theorem State.read_prose {settings : Settings} {state : State} {cursor : Cursor}
    (inside : state.cursor = some cursor) (closed : state.fence = none) {line : List Char}
    (noFence : settings.isFence line = false)
    (plain : cursor.inHelp = true ∧ isHeading state.registry line = false ∨
      startsWith "### " line = false ∧ startsWith "#### " line = false) (raw : List Char) :
    state.read settings line raw = .ok (state.readProse line) := by
  have text : state.readText line = .ok (state.readProse line) := by
    unfold State.readText
    rcases plain with ⟨inHelp, noHeading⟩ | ⟨noGroup, noCommand⟩
    · simp only [inside, Option.any_some, inHelp, noHeading, Bool.not_false, Bool.and_true, if_true]
      rfl
    · rw [← after?_eq_none_iff] at noGroup noCommand
      rw [noGroup, noCommand, ite_self]
      rfl
  simp only [State.read, noFence, inside, closed, Bool.and_false, Bool.false_eq_true, if_false, text]

theorem State.read_plain (settings : Settings) {state : State} (outside : state.cursor = none)
    {line : List Char} (noGroup : startsWith "### " line = false)
    (noCommand : startsWith "#### " line = false) (raw : List Char) :
    state.read settings line raw = .ok state := by
  rw [← after?_eq_none_iff] at noGroup noCommand
  have prose : state.readProse line = state := by
    rw [State.readProse, outside]
  simp only [State.read, State.readText, outside, noGroup, noCommand, prose, Option.isSome_none,
    Option.any_none, Bool.false_and, Bool.false_eq_true, if_false]
  rfl

theorem State.read_blankLine (settings : Settings) (state : State)
    (closed : state.fence = none) {line : List Char}
    (blank : trim line = []) (raw : List Char) : state.read settings line raw = .ok state := by
  have plain {start : String} (marked : '#' ∈ start.toList) : startsWith start line = false :=
    startsWith_eq_false_of_blank marked (by decide) blank
  have noGroup : startsWith "### " line = false := plain (by decide)
  have noCommand : startsWith "#### " line = false := plain (by decide)
  have noExamples : startsWith "##### " line = false := plain (by decide)
  obtain ⟨registry, group, cursor, fence, examples, commands⟩ := state
  cases cursor with
  | none => exact State.read_plain settings rfl noGroup noCommand raw
  | some cursor =>
    rw [State.read_prose rfl closed (settings.isFence_of_blank blank)
      (.inr ⟨noGroup, noCommand⟩)]
    simp [State.readProse, State.readUsage, blank, noExamples]

theorem State.read_blank (settings : Settings) (state : State)
    (closed : state.fence = none) :
    state.read settings [] ['\n'] = .ok state :=
  state.read_blankLine settings closed rfl ['\n']

/-- Blank lines change nothing outside examples. -/
theorem State.readAll_blankLines (settings : Settings) (state : State)
    (closed : state.fence = none) {raws : List (List Char)}
    (blank : ∀ raw ∈ raws, trim raw = []) : state.readAll settings raws = .ok state := by
  induction raws with
  | nil => rfl
  | cons raw raws ih =>
    rw [List.forall_mem_cons] at blank
    have content := trim_eq_nil_of_subset (contentOf_isPrefix raw).subset blank.1
    rw [State.readAll_cons_of_ok (state.read_blankLine settings closed content raw), ih blank.2]

theorem State.readAll_blanks (settings : Settings) (state : State)
    (closed : state.fence = none) (count : Nat) :
    state.readAll settings (List.replicate count ['\n']) = .ok state := by
  apply state.readAll_blankLines settings closed
  intro raw member
  rw [List.eq_of_mem_replicate member]
  rfl

theorem State.Settled.inHelp_eq_false {state : State} (settled : state.Settled) :
    state.cursor.any (·.inHelp) = false := by
  cases found : state.cursor with
  | none => rfl
  | some cursor =>
    rw [settled.quiet cursor found]
    rfl

theorem State.Settled.read_eq {state : State} (settled : state.Settled) {settings : Settings}
    {line : List Char} (noFence : settings.isFence line = false) (raw : List Char) :
    state.read settings line raw = state.readText line := by
  rw [State.read, noFence, Bool.and_false, settled.closed]
  cases state.cursor <;> rfl

theorem State.read_outside (settings : Settings) {state : State} (outside : state.cursor = none)
    (line raw : List Char) : state.read settings line raw = state.readText line := by
  rw [State.read, outside]
  rfl

theorem State.readText_group {state : State} (noHelp : state.cursor.any (·.inHelp) = false)
    (heading : List Char) :
    state.readText ("### ".toList ++ heading) =
      .ok { state with group := some (String.ofList (trim heading)), cursor := none } := by
  rw [State.readText, noHelp, after?_append]
  rfl

theorem State.readText_command {state : State} (noHelp : state.cursor.any (·.inHelp) = false)
    (heading : List Char) :
    state.readText ("#### ".toList ++ heading) = state.openCommand heading := by
  rw [State.readText, noHelp, after?_append]
  rfl

/-- What is read of the name in the heading of a command: a backtick ends it. -/
def headedName (name : String) : String := String.ofList (name.toList.takeWhile (· != '`'))

theorem headedName_of_plain {name : String} (plain : '`' ∉ name.toList) :
    headedName name = name := by
  have kept : name.toList.takeWhile (· != '`') = name.toList := by
    rw [List.takeWhile_eq_self_iff]
    intro c member
    rw [bne_iff_ne]
    intro equal
    exact plain (equal ▸ member)
  rw [headedName, kept, String.ofList_toList]

private theorem commandToken?_quoted (name : List Char) :
    commandToken? ('`' :: '/' :: name ++ ['`']) = some ('/' :: name.takeWhile (· != '`')) := by
  have kept : (name ++ ['`']).takeWhile (· != '`') = name.takeWhile (· != '`') := by
    induction name with
    | nil => rfl
    | cons c name ih => simp only [List.cons_append, List.takeWhile_cons, ih]
  simp [commandToken?, kept]

/-- The heading of a command opens what is read of its name if the registry has that, and is
an error if not. -/
theorem State.openCommand_quoted (state : State) (group name : String)
    (inGroup : state.group = some group) :
    state.openCommand ('`' :: '/' :: name.toList ++ ['`']) =
      if (state.registry.find? group (headedName name)).isSome then
        .ok { state with
          cursor := some ⟨group, headedName name, true, true⟩
          commands := state.commands + 1 }
      else .error (⟨group, headedName name⟩, { state with cursor := none }) := by
  rw [State.openCommand, inGroup, commandToken?_quoted]
  rfl

private theorem isHeading_congr {first second : Registry}
    (same : first.groupNames = second.groupNames)
    (line : List Char) : isHeading first line = isHeading second line := by
  have groups (name : String) : (first.group? name).isSome = (second.group? name).isSome := by
    rw [Bool.eq_iff_iff, Registry.isSome_group?_iff, Registry.isSome_group?_iff, same]
  simp only [isHeading, groups]

/-- A line that leaves the reading of a help text where it is. -/
@[mk_iff]
structure Quiet (settings : Settings) (registry : Registry) (line : List Char) : Prop where
  noFence : settings.isFence line = false
  noExamples : startsWith "##### " line = false
  noHeading : isHeading registry line = false

instance (settings : Settings) (registry : Registry) (line : List Char) :
    Decidable (Quiet settings registry line) :=
  decidable_of_iff _ (quiet_iff settings registry line).symm

/-- The usage line among the lines under a command heading: the first that is not blank, if
it begins with a single backtick. -/
def usageIn (lines : List (List Char)) : Option (List Char) :=
  (lines.find? (trim · ≠ [])).filter fun line => startsWith "`" line && !startsWith "``" line

def noteUsage (usage : Option (List Char)) (command : Command) : Command :=
  { command with usage := (usage.map String.ofList).or command.usage }

private theorem usageIn_cons {line : List Char} (nonblank : trim line ≠ [])
    (lines : List (List Char)) :
    usageIn (line :: lines) = usageIn [line] := by
  rw [usageIn, usageIn, List.find?_cons_of_pos (by simpa using nonblank),
    List.find?_cons_of_pos (by simpa using nonblank)]

theorem Quiet.congr {settings : Settings} {first second : Registry} {line : List Char}
    (quiet : Quiet settings first line) (same : first.groupNames = second.groupNames) :
    Quiet settings second line :=
  ⟨quiet.noFence, quiet.noExamples, isHeading_congr same line ▸ quiet.noHeading⟩

private theorem State.readUsage_of_ne (state : State) (group name : String) {line : List Char}
    (nonblank : trim line ≠ []) :
    state.readUsage ⟨group, name, true, true⟩ line = { state with
      registry := state.registry.update group name (noteUsage (usageIn [line]))
      cursor := some ⟨group, name, false, true⟩ } := by
  by_cases single : startsWith "`" line = true ∧ ¬ startsWith "``" line = true
  · have found : usageIn [line] = some line := by
      simp [usageIn, nonblank, single]
    rw [State.readUsage, if_pos ⟨rfl, nonblank⟩, if_pos single, found]
    rfl
  · have absent : usageIn [line] = none := by
      simpa [usageIn, nonblank] using single
    have unchanged := state.registry.update_same group name (noteUsage none) fun _ => rfl
    rw [State.readUsage, if_pos ⟨rfl, nonblank⟩, if_neg single, absent, unchanged]

theorem State.read_quiet {settings : Settings} {state : State} {group name : String} {awaits : Bool}
    (reading : state.cursor = some ⟨group, name, awaits, true⟩) (closed : state.fence = none)
    {line : List Char} (quiet : Quiet settings state.registry line) (raw : List Char) :
    state.read settings line raw =
      .ok (state.readUsage ⟨group, name, awaits, true⟩ line) := by
  obtain ⟨registry, holder, cursor, fence, examples, commands⟩ := state
  subst reading closed
  simp [State.read, State.readText, State.readProse, quiet.noFence, quiet.noHeading,
    quiet.noExamples]
  rfl

private theorem State.readAll_afterUsage {settings : Settings} {state : State} {group name : String}
    (reading : state.cursor = some ⟨group, name, false, true⟩) (closed : state.fence = none)
    (raws : List (List Char))
    (quiet : ∀ raw ∈ raws, Quiet settings state.registry (contentOf raw)) :
    state.readAll settings raws = .ok state := by
  induction raws with
  | nil => rfl
  | cons raw raws ih =>
    rw [State.readAll_cons_of_ok (State.read_quiet reading closed (quiet raw List.mem_cons_self) raw)]
    exact ih fun other member => quiet other (List.mem_cons_of_mem _ member)

/-- The help text of a command is passed over, save for its usage line. -/
theorem State.readAll_help {settings : Settings} {state : State} {group name : String}
    (reading : state.cursor = some ⟨group, name, true, true⟩) (closed : state.fence = none)
    (raws : List (List Char))
    (quiet : ∀ raw ∈ raws, Quiet settings state.registry (contentOf raw)) :
    ∃ awaits, state.readAll settings raws = .ok { state with
      registry := state.registry.update group name (noteUsage (usageIn (raws.map contentOf)))
      cursor := some ⟨group, name, awaits, true⟩ } := by
  induction raws with
  | nil =>
    refine ⟨true, ?_⟩
    have unchanged := state.registry.update_same group name (noteUsage (usageIn []))
      fun _ => rfl
    rw [List.map_nil, unchanged, ← reading]
    rfl
  | cons raw raws ih =>
    have here := State.read_quiet reading closed (quiet raw List.mem_cons_self) raw
    have later := fun other member => quiet other (List.mem_cons_of_mem raw member)
    by_cases blank : trim (contentOf raw) = []
    · have same : state.readUsage ⟨group, name, true, true⟩ (contentOf raw) = state := by
        simp [State.readUsage, blank]
      rw [same] at here
      rw [State.readAll_cons_of_ok here]
      simpa [usageIn, blank] using ih later
    · refine ⟨false, ?_⟩
      rw [state.readUsage_of_ne group name blank] at here
      rw [State.readAll_cons_of_ok here, List.map_cons, usageIn_cons blank (raws.map contentOf)]
      refine State.readAll_afterUsage rfl (by exact closed) raws ?_
      intro other member
      exact (later other member).congr (Registry.groupNames_update _ _ _ _).symm

/-- A line of the level at which examples are headed ends the help text. -/
theorem State.read_subheading {settings : Settings} {state : State} {group name : String}
    {awaits inHelp : Bool} (inside : state.cursor = some ⟨group, name, awaits, inHelp⟩)
    (closed : state.fence = none) {line : List Char} (begins : startsWith "##### " line = true) (raw : List Char) :
    state.read settings line raw = .ok { state with cursor := some (.settled group name) } := by
  have noGroup : startsWith "### " line = false := startsWith_eq_false_of_apart begins (by decide)
  have noCommand : startsWith "#### " line = false := startsWith_eq_false_of_apart begins (by decide)
  have noUsage : startsWith "`" line = false := startsWith_eq_false_of_apart begins (by decide)
  have noFence : settings.isFence line = false := by
    by_contra isFence
    have fence := Settings.startsWith_of_isFence (by simpa using isFence)
    rw [startsWith_eq_false_of_apart begins (by decide)] at fence
    cases fence
  have solid : trim line ≠ [] := by
    intro blank
    rw [startsWith_eq_false_of_blank (c := '#') (by decide) (by decide) blank] at begins
    cases begins
  rw [State.read_prose inside closed noFence (.inr ⟨noGroup, noCommand⟩)]
  cases awaits <;>
    simp [State.readProse, State.readUsage, Cursor.settled, inside, begins, solid, noUsage]

theorem State.read_fence {settings : Settings} {state : State} {cursor : Cursor}
    (inside : state.cursor = some cursor) {line : List Char}
    (fence : settings.isFence line = true) (raw : List Char) :
    state.read settings line raw = .ok state.toggleFence := by
  rw [State.read, inside, fence]
  rfl

theorem State.toggleFence_of_closed {state : State} (closed : state.fence = none) :
    state.toggleFence = { state with
      cursor := state.cursor.map fun cursor => .settled cursor.group cursor.command
      fence := some [] } := by
  rw [State.toggleFence, closed]
  rfl

theorem State.fence_toggleFence_of_open {state : State} {body : List Char}
    (opened : state.fence = some body) : state.toggleFence.fence = none := by
  rw [State.toggleFence, opened]
  dsimp only [State.keepExample, State.endHelp]
  split
  · rfl
  · split <;> rfl

/-- An example that is closed goes to the command of the cursor, if the registry has it. -/
theorem State.toggleFence_of_known {state : State} {cursor : Cursor} {body : List Char}
    (inside : state.cursor = some cursor) (opened : state.fence = some body)
    (known : (state.registry.find? cursor.group cursor.command).isSome = true) :
    state.toggleFence = { state with
      registry := state.registry.update cursor.group cursor.command
        (·.addExample (String.ofList body))
      cursor := some (.settled cursor.group cursor.command)
      fence := none
      examples := state.examples + 1 } := by
  rw [State.toggleFence, opened]
  dsimp only [State.keepExample]
  rw [inside]
  dsimp only
  rw [if_pos known]
  rfl

/-- Lines in an open example are collected as they are. -/
theorem State.readAll_collecting (settings : Settings) (state : State) {cursor : Cursor}
    (inside : state.cursor = some cursor) (body : List Char) (raws : List (List Char))
    (noFence : ∀ raw ∈ raws, settings.isFence (contentOf raw) = false) :
    State.readAll settings { state with fence := some body } raws =
      .ok { state with fence := some (body ++ raws.flatten) } := by
  induction raws generalizing body with
  | nil =>
    rw [List.flatten_nil, List.append_nil]
    rfl
  | cons raw raws ih =>
    rw [List.forall_mem_cons] at noFence
    have here : State.read settings { state with fence := some body } (contentOf raw) raw =
        .ok { state with fence := some (body ++ raw) } := by
      rw [State.read, noFence.1, Bool.and_false]
      dsimp only
      rw [inside]
      rfl
    rw [State.readAll_cons_of_ok here, List.flatten_cons, ← List.append_assoc]
    exact ih _ noFence.2

/-- A fenced example, with the lines of its fences, is added to the command. -/
theorem State.readAll_fenced {settings : Settings} {state : State} {cursor : Cursor}
    (inside : state.cursor = some cursor)
    (known : (state.registry.find? cursor.group cursor.command).isSome = true)
    (closed : state.fence = none) {opening closing : List Char}
    (opens : settings.isFence (contentOf opening) = true)
    (closes : settings.isFence (contentOf closing) = true) (raws : List (List Char))
    (noFence : ∀ raw ∈ raws, settings.isFence (contentOf raw) = false) :
    state.readAll settings (opening :: raws ++ [closing]) = .ok { state with
      registry := state.registry.update cursor.group cursor.command
        (·.addExample (String.ofList raws.flatten))
      cursor := some (.settled cursor.group cursor.command)
      examples := state.examples + 1 } := by
  let settled : State := { state with cursor := some (.settled cursor.group cursor.command) }
  have opened : state.read settings (contentOf opening) opening =
      .ok { settled with fence := some [] } := by
    rw [State.read_fence inside opens, State.toggleFence_of_closed closed, inside]
    rfl
  have collected := State.readAll_collecting settings settled rfl [] raws noFence
  have ended : State.read settings { settled with fence := some raws.flatten } (contentOf closing)
      closing = .ok { settled with
        registry := state.registry.update cursor.group cursor.command
          (·.addExample (String.ofList raws.flatten))
        fence := none
        examples := state.examples + 1 } := by
    have kept := @State.toggleFence_of_known { settled with fence := some raws.flatten }
      (.settled cursor.group cursor.command) raws.flatten rfl rfl known
    rw [State.read_fence rfl closes, kept]
    rfl
  rw [List.cons_append, State.readAll_cons_of_ok opened, State.readAll_append_of_ok collected,
    List.nil_append, State.readAll_cons_of_ok ended, ← closed]
  rfl

/-- An example between its fences, with the blank lines behind it. -/
structure ExampleBlock where
  opening : List Char
  body : List (List Char)
  closing : List Char
  gap : List (List Char)

namespace ExampleBlock

def lines (block : ExampleBlock) : List (List Char) :=
  (block.opening :: block.body ++ [block.closing]) ++ block.gap

def text (block : ExampleBlock) : String := String.ofList block.body.flatten

/-- The fences of a block are fences, and no other line of it is one. -/
@[mk_iff]
structure Fenced (settings : Settings) (block : ExampleBlock) : Prop where
  opens : settings.isFence (contentOf block.opening) = true
  noFence : ∀ raw ∈ block.body, settings.isFence (contentOf raw) = false
  closes : settings.isFence (contentOf block.closing) = true
  gap : ∀ raw ∈ block.gap, trim raw = []

instance (settings : Settings) (block : ExampleBlock) : Decidable (block.Fenced settings) :=
  decidable_of_iff _ (fenced_iff settings block).symm

end ExampleBlock

/-- Blocks are added to the command one after the other. -/
theorem State.readAll_blocks {settings : Settings} {state : State} {cursor : Cursor}
    (inside : state.cursor = some cursor)
    (known : (state.registry.find? cursor.group cursor.command).isSome = true)
    (closed : state.fence = none) (blocks : List ExampleBlock)
    (fenced : ∀ block ∈ blocks, block.Fenced settings) :
    state.readAll settings (blocks.flatMap ExampleBlock.lines) = .ok { state with
      registry := state.registry.update cursor.group cursor.command
        (addExamples (blocks.map ExampleBlock.text))
      cursor := some (if blocks = [] then cursor else .settled cursor.group cursor.command)
      examples := state.examples + blocks.length } := by
  induction blocks generalizing state cursor with
  | nil =>
    have unchanged := state.registry.update_same cursor.group cursor.command (addExamples [])
      fun command => by simp [addExamples]
    rw [List.map_nil, unchanged, if_pos rfl, ← inside]
    rfl
  | cons block blocks ih =>
    rw [List.forall_mem_cons] at fenced
    obtain ⟨⟨opens, noFence, closes, gap⟩, others⟩ := fenced
    have first := State.readAll_fenced inside known closed opens closes block.body noFence
    have fused := state.registry.update_update cursor.group cursor.command (·.addExample block.text)
      (addExamples (blocks.map ExampleBlock.text)) fun _ => rfl
    have together : addExamples (blocks.map ExampleBlock.text) ∘ (·.addExample block.text) =
        addExamples ((block :: blocks).map ExampleBlock.text) := by
      funext command
      simp [addExamples, Command.addExample]
    have stillKnown : ((state.registry.update cursor.group cursor.command
        (·.addExample block.text)).find? cursor.group cursor.command).isSome = true := by
      have keeps (command : Command) : (command.addExample block.text).name = command.name := rfl
      rw [Registry.isSome_find?_update _ keeps]
      exact known
    rw [together] at fused
    rw [List.flatMap_cons, ExampleBlock.lines, List.append_assoc, State.readAll_append_of_ok first,
      State.readAll_append_of_ok (State.readAll_blankLines settings _ (by exact closed) gap),
      ih rfl stillKnown (by exact closed) others, if_neg (List.cons_ne_nil block blocks), ← fused]
    simp only [Except.ok.injEq, State.mk.injEq, true_and, List.length_cons]
    refine ⟨rfl, ?_, by omega, trivial⟩
    split <;> rfl

end Outline

end CommandReference
