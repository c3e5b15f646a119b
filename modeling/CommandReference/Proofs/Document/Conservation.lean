import CommandReference.Proofs.Command.Places
import CommandReference.Proofs.Document.Preface
import Mathlib.Data.List.Forall2
import Mathlib.Data.List.Induction

/-! What the reading of a document can do to a registry. At any point, and whether or not it
fails in the end, it has added examples that could stand in a document again, has counted them,
and apart from usage lines has changed nothing else. -/
namespace CommandReference
open Text

/-- The same command with examples added that can stand between fences. The usage line is left
open. -/
structure Command.Extended (settings : Settings) (old new : Command) : Prop where
  name : new.name = old.name
  help : new.help = old.help
  named : new.named = old.named
  unnamed : new.unnamed = old.unnamed
  examples : ∃ added, new.examples = old.examples ++ added ∧
    ∀ text ∈ added, Document.Fenceable settings text

structure Group.Extended (settings : Settings) (old new : Group) : Prop where
  name : new.name = old.name
  commands : List.Forall₂ (Command.Extended settings) old.commands new.commands

def Registry.Extended (settings : Settings) (old new : Registry) : Prop :=
  List.Forall₂ (Group.Extended settings) old.groups new.groups

/-- The length of what the commands of a registry have, by some measure. -/
def Registry.tally {β : Type} (f : Command → List β) (registry : Registry) : Nat :=
  (registry.groups.flatMap fun group => group.commands.flatMap f).length

def Registry.exampleCount (registry : Registry) : Nat := registry.tally (·.examples)

variable {settings : Settings}

theorem Command.Extended.refl (command : Command) : command.Extended settings command where
  name := rfl
  help := rfl
  named := rfl
  unnamed := rfl
  examples := ⟨[], by simp, by simp⟩

theorem Registry.Extended.refl (registry : Registry) : registry.Extended settings registry := by
  apply List.forall₂_same.2
  intro group _
  refine ⟨rfl, List.forall₂_same.2 ?_⟩
  intro command _
  exact .refl command

theorem forall₂_updateFirst {α β : Type} {R : α → β → Prop} {change : β → β}
    (keeps : ∀ a b, R a b → R a (change b)) (p : β → Bool) {first : List α} {second : List β}
    (related : List.Forall₂ R first second) :
    List.Forall₂ R first (updateFirst p change second) := by
  induction related with
  | nil => exact .nil
  | @cons a b first second head tail ih =>
    unfold updateFirst
    split
    · exact .cons (keeps a b head) tail
    · exact .cons head ih

theorem Registry.Extended.update {old new : Registry} (extended : old.Extended settings new)
    {change : Command → Command}
    (keeps : ∀ first second, Command.Extended settings first second →
      Command.Extended settings first (change second)) (group name : String) :
    old.Extended settings (new.update group name change) := by
  refine forall₂_updateFirst ?_ _ extended
  intro first second related
  exact ⟨related.name, forall₂_updateFirst keeps _ related.commands⟩

theorem Command.Extended.addExample {old new : Command} (extended : old.Extended settings new)
    {text : String} (fenceable : Document.Fenceable settings text) :
    old.Extended settings (new.addExample text) := by
  obtain ⟨added, grown, each⟩ := extended.examples
  refine { extended with examples := ⟨added ++ [text], ?_, ?_⟩ }
  · simp [Command.addExample, grown]
  · intro other member
    rcases List.mem_append.1 member with inside | last
    · exact each other inside
    · rw [List.mem_singleton.1 last]
      exact fenceable

theorem Registry.tally_update {β : Type} {f : Command → List β} {registry : Registry}
    {group name : String} {command : Command} (found : registry.find? group name = some command)
    {change : Command → Command} {count : Nat}
    (more : (f (change command)).length = (f command).length + count) :
    (registry.update group name change).tally f = registry.tally f + count := by
  unfold find? at found
  obtain ⟨holder, inRegistry, inGroup⟩ := Option.bind_eq_some_iff.1 found
  apply length_flatMap_updateFirst inRegistry
  exact length_flatMap_updateFirst inGroup more

namespace Outline
open Document

/-- The same command. -/
structure Cursor.Same (cursor next : Cursor) : Prop where
  group : next.group = cursor.group
  command : next.command = cursor.command

/-- No example is open to which a line would be added. -/
def State.Apart (state : State) : Prop := state.cursor = none ∨ state.fence = none

/-- What a line can do to an outline, whether or not it is an error. Only a line that is read apart
from examples can change the cursor. -/
inductive Step (settings : Settings) (state : State) (line raw : List Char) : State → Prop where
  | left (group : Option String) : state.Apart →
      Step settings state line raw { state with group := group, cursor := none }
  | stayed {cursor next : Cursor} : state.cursor = some cursor → state.fence = none →
      cursor.Same next → Step settings state line raw { state with cursor := some next }
  | noted {cursor next : Cursor} (usage : Option String) : state.cursor = some cursor →
      state.fence = none → cursor.Same next →
      Step settings state line raw { state with
        registry := state.registry.update cursor.group cursor.command
          fun command => { command with usage := usage }
        cursor := some next }
  | opened {group name : String} : state.Apart →
      (state.registry.find? group name).isSome = true →
      Step settings state line raw { state with
        cursor := some ⟨group, name, true, true⟩
        commands := state.commands + 1 }
  | toggled {cursor : Cursor} : state.cursor = some cursor → settings.isFence line = true →
      Step settings state line raw state.toggleFence
  | collected {cursor : Cursor} {body : List Char} : state.cursor = some cursor →
      state.fence = some body → settings.isFence line = false →
      Step settings state line raw { state with fence := some (body ++ raw) }

variable {state next : State} {line raw : List Char} {cause : UnknownCommand}

theorem State.Apart.closed (apart : state.Apart)
    (fenced : state.fence.isSome = true → state.cursor.isSome = true) : state.fence = none := by
  rcases apart with outside | closed
  · have noFence := mt fenced (by simp [outside])
    simpa using noFence
  · exact closed

private theorem step_openCommand (apart : state.Apart) {heading : List Char}
    (read : state.openCommand heading = .ok next) : Step settings state line raw next := by
  unfold State.openCommand at read
  dsimp only at read
  split at read
  · split at read
    · rename_i known
      cases read
      exact .opened apart known
    · cases read
  · cases read
    exact .left state.group apart

theorem step_readProse (settings : Settings) (apart : state.Apart) (line raw : List Char) :
    Step settings state line raw (state.readProse line) := by
  obtain ⟨registry, group, cursor, fence, examples, commands⟩ := state
  cases cursor with
  | none => exact .left group apart
  | some cursor =>
    have closed : fence = none := apart.resolve_left (by rintro ⟨⟩)
    unfold State.readProse
    dsimp only
    unfold State.readUsage
    split
    · dsimp only
      split
      · exact .noted _ rfl closed ⟨rfl, rfl⟩
      · exact .stayed rfl closed ⟨rfl, rfl⟩
    · exact .stayed rfl closed ⟨rfl, rfl⟩

private theorem step_readText (apart : state.Apart) (read : state.readText line = .ok next) :
    Step settings state line raw next := by
  unfold State.readText at read
  split at read
  · cases read
    exact step_readProse settings apart line raw
  · split at read
    · cases read
      exact .left _ apart
    · exact step_openCommand apart read
    · cases read
      exact step_readProse settings apart line raw

/-- A line is a fence, is added to an open example, or is read apart from examples. -/
theorem State.read_cases (settings : Settings) (state : State) (line raw : List Char) :
    (∃ cursor, state.cursor = some cursor ∧ settings.isFence line = true ∧
      state.read settings line raw = .ok state.toggleFence) ∨
    (∃ cursor body, state.cursor = some cursor ∧ state.fence = some body ∧
      settings.isFence line = false ∧
      state.read settings line raw = .ok { state with fence := some (body ++ raw) }) ∨
    state.Apart ∧ state.read settings line raw = state.readText line := by
  rw [State.read]
  cases inside : state.cursor with
  | none => exact .inr (.inr ⟨.inl inside, rfl⟩)
  | some cursor =>
    cases isFence : settings.isFence line with
    | true => exact .inl ⟨cursor, rfl, rfl, rfl⟩
    | false =>
      cases open_ : state.fence with
      | none => exact .inr (.inr ⟨.inr open_, rfl⟩)
      | some body => exact .inr (.inl ⟨cursor, body, rfl, rfl, rfl, rfl⟩)

theorem step_read (read : state.read settings line raw = .ok next) :
    Step settings state line raw next := by
  rcases state.read_cases settings line raw with ⟨cursor, inside, isFence, done⟩ |
    ⟨cursor, body, inside, opened, noFence, done⟩ | ⟨apart, done⟩
  · cases done.symm.trans read
    exact .toggled inside isFence
  · cases done.symm.trans read
    exact .collected inside opened noFence
  · exact step_readText apart (done.symm.trans read)

/-- The only error is that of a heading, which has then left the command before it. -/
theorem State.read_eq_error (failed : state.read settings line raw = .error (cause, next)) :
    state.Apart ∧ next = { state with cursor := none } := by
  rcases state.read_cases settings line raw with ⟨cursor, inside, isFence, done⟩ |
    ⟨cursor, body, inside, opened, noFence, done⟩ | ⟨apart, done⟩
  · cases done.symm.trans failed
  · cases done.symm.trans failed
  · rw [done, State.readText] at failed
    split at failed
    · cases failed
    · split at failed
      · cases failed
      · unfold State.openCommand at failed
        dsimp only at failed
        split at failed
        · split at failed
          · cases failed
          · cases failed
            exact ⟨apart, rfl⟩
        · cases failed
      · cases failed

/-- What every line keeps. An example is open only under the heading of a command, and that
command is in the registry. -/
structure State.Sound (settings : Settings) (original : Registry) (state : State) : Prop where
  extended : original.Extended settings state.registry
  counted : state.registry.exampleCount = original.exampleCount + state.examples
  fenced : state.fence.isSome = true → state.cursor.isSome = true
  resolves : ∀ cursor, state.cursor = some cursor →
    ∃ command, state.registry.find? cursor.group cursor.command = some command

/-- What has been collected of an open example can stand between fences. -/
def State.Collects (settings : Settings) (state : State) : Prop :=
  ∀ body, state.fence = some body → Fenceable settings (String.ofList body)

variable {original : Registry}

theorem State.Sound.left (sound : state.Sound settings original) (group : Option String)
    (apart : state.Apart) :
    State.Sound settings original { state with group := group, cursor := none } := by
  refine ⟨sound.extended, sound.counted, ?_, by rintro cursor ⟨⟩⟩
  intro opened
  have opened : state.fence.isSome = true := opened
  rw [apart.closed sound.fenced] at opened
  cases opened

theorem State.Sound.updated (sound : state.Sound settings original) {cursor : Cursor}
    (inside : state.cursor = some cursor) (next : Cursor) (same : cursor.Same next)
    (fence : Option (List Char)) {change : Command → Command} (count : Nat)
    (name : ∀ command, (change command).name = command.name)
    (keeps : ∀ first second, Command.Extended settings first second →
      Command.Extended settings first (change second))
    (more : ∀ command, (change command).examples.length = command.examples.length + count) :
    State.Sound settings original { state with
      registry := state.registry.update cursor.group cursor.command change
      cursor := some next
      fence := fence
      examples := state.examples + count } := by
  obtain ⟨command, found⟩ := sound.resolves cursor inside
  constructor
  · exact sound.extended.update keeps _ _
  · have counted := sound.counted
    unfold Registry.exampleCount at counted ⊢
    rw [Registry.tally_update found (more command), counted, Nat.add_assoc]
  · intro _
    rfl
  · rintro other ⟨⟩
    refine ⟨change command, ?_⟩
    dsimp only
    rw [same.group, same.command, Registry.find?_update _ name, found]
    rfl

theorem State.Sound.toggled (sound : state.Sound settings original)
    (collects : state.Collects settings) {cursor : Cursor} (inside : state.cursor = some cursor) :
    state.toggleFence.Sound settings original := by
  cases fence : state.fence with
  | none =>
    rw [State.toggleFence_of_closed fence, inside]
    refine ⟨sound.extended, sound.counted, fun _ => rfl, ?_⟩
    rintro next ⟨⟩
    exact sound.resolves cursor inside
  | some body =>
    -- The cursor resolves, so that the example is not dropped.
    have known := Option.isSome_iff_exists.2 (sound.resolves cursor inside)
    rw [State.toggleFence_of_known inside fence known]
    apply sound.updated inside (.settled cursor.group cursor.command) ⟨rfl, rfl⟩ none 1
    · intro command
      rfl
    · intro first second extended
      exact extended.addExample (collects body fence)
    · intro command
      simp [Command.addExample]

theorem State.Sound.step (sound : state.Sound settings original)
    (collects : state.Collects settings) (step : Step settings state line raw next) :
    next.Sound settings original := by
  cases step with
  | left group apart => exact sound.left group apart
  | @stayed cursor next inside closed same =>
    refine ⟨sound.extended, sound.counted, fun _ => rfl, ?_⟩
    rintro other ⟨⟩
    rw [same.group, same.command]
    exact sound.resolves cursor inside
  | @noted cursor next usage inside closed same =>
    apply sound.updated inside next same state.fence 0
    · intro command
      rfl
    · intro first second extended
      exact { extended with }
    · intro command
      rfl
  | opened apart known =>
    refine ⟨sound.extended, sound.counted, fun _ => rfl, ?_⟩
    rintro other ⟨⟩
    exact Option.isSome_iff_exists.1 known
  | toggled inside => exact sound.toggled collects inside
  | @collected cursor body inside collecting noFence =>
    refine ⟨sound.extended, sound.counted, fun _ => ?_, sound.resolves⟩
    exact Option.isSome_iff_exists.2 ⟨cursor, inside⟩

/-- An example that is open is not lost: it goes to the command of the cursor with the fence that
closes it. -/
theorem State.Sound.read_closing (sound : state.Sound settings original)
    {body : List Char} (opened : state.fence = some body) :
    ∃ cursor command, state.cursor = some cursor ∧
      state.registry.find? cursor.group cursor.command = some command ∧
      ∀ line raw, settings.isFence line = true → ∃ next,
        state.read settings line raw = .ok next ∧ next.fence = none ∧
        next.examples = state.examples + 1 ∧
        next.registry.find? cursor.group cursor.command =
          some (command.addExample (String.ofList body)) := by
  have inside := sound.fenced (Option.isSome_iff_exists.2 ⟨body, opened⟩)
  obtain ⟨cursor, inside⟩ := Option.isSome_iff_exists.1 inside
  obtain ⟨command, found⟩ := sound.resolves cursor inside
  refine ⟨cursor, command, inside, found, fun line raw isFence => ?_⟩
  have known := Option.isSome_iff_exists.2 ⟨command, found⟩
  have keeps (command : Command) : (command.addExample (String.ofList body)).name = command.name :=
    rfl
  refine ⟨_, State.read_fence inside isFence raw, ?_⟩
  rw [State.toggleFence_of_known inside opened known]
  refine ⟨rfl, rfl, ?_⟩
  rw [Registry.find?_update _ keeps, found]
  rfl

private theorem fenceable_append {body raw : List Char}
    (fenceable : Fenceable settings (String.ofList body))
    (ended : Ended raw) (single : rawLines raw = [raw])
    (noFence : settings.isFence (contentOf raw) = false) :
    Fenceable settings (String.ofList (body ++ raw)) := by
  have whole := fenceable.ended
  have plain := fenceable.noFence
  rw [String.toList_ofList] at whole plain
  constructor
  · rw [String.toList_ofList]
    exact whole.append ended
  · intro other member
    rw [String.toList_ofList, rawLines_append whole, single, List.mem_append] at member
    rcases member with inside | last
    · exact plain other inside
    · rw [List.mem_singleton.1 last]
      exact noFence

/-- A whole line that is added to an open example leaves it fit for a document. -/
theorem State.Collects.step (collects : state.Collects settings) (ended : Ended raw)
    (single : rawLines raw = [raw]) (step : Step settings state (contentOf raw) raw next) :
    next.Collects settings := by
  cases step with
  | left | stayed | noted | opened => exact collects
  | @toggled cursor inside =>
    intro body fence
    cases before : state.fence with
    | none =>
      rw [State.toggleFence_of_closed before] at fence
      cases fence
      exact ⟨by decide, by simp [rawLines]⟩
    | some old =>
      rw [State.fence_toggleFence_of_open before] at fence
      cases fence
  | @collected cursor old inside collecting noFence =>
    rintro body ⟨⟩
    exact fenceable_append (collects old collecting) ended single noFence

end Outline

namespace Document
open Outline

/-- What has been read of a document: an outline that keeps the registry, and requirements in
which no line is blank or a heading. -/
structure Reading.Sound (settings : Settings) (original : Registry) (reading : Reading) : Prop where
  outline : reading.outline.Sound settings original
  prose : ∀ line ∈ rawLines reading.requirements,
    trim line ≠ [] ∧ startsWith "## " line = false

/-- All lines that have been taken in were whole. -/
structure Reading.Whole (settings : Settings) (reading : Reading) : Prop where
  requirements : Ended reading.requirements
  outline : reading.outline.Collects settings

theorem Reading.sound_start (settings : Settings) (registry : Registry) :
    (Reading.start registry).Sound settings registry where
  outline := ⟨.refl registry, rfl, by simp [Reading.start], by rintro cursor ⟨⟩⟩
  prose := by simp [Reading.start, rawLines]

theorem Reading.whole_start (settings : Settings) (registry : Registry) :
    (Reading.start registry).Whole settings where
  requirements := ended_nil
  outline := by rintro body ⟨⟩

private theorem isPrefix_of_append {start cs dropped : List Char} (begins : start <+: cs ++ dropped)
    (others : ∀ c ∈ dropped, c ∉ start) : start <+: cs := by
  induction dropped using List.reverseRecOn with
  | nil => simpa using begins
  | append_singleton dropped c ih =>
    rw [← List.append_assoc] at begins
    apply ih (prefix_of_concat begins (others c (by simp)))
    intro other member
    exact others other (List.mem_append_left _ member)

/-- The ending of a line does not matter to how the line begins. -/
theorem startsWith_contentOf {start : String} (noFeed : '\n' ∉ start.toList)
    (noReturn : '\r' ∉ start.toList) (raw : List Char) :
    startsWith start (contentOf raw) = startsWith start raw := by
  rw [Bool.eq_iff_iff]
  constructor
  · exact startsWith_of_isPrefix (contentOf_isPrefix raw)
  · intro begins
    obtain ⟨dropped, shape, breaks⟩ :=
      exists_append_dropEndWhile (fun c => c = '\n' || c = '\r') raw
    rw [startsWith_iff, shape] at begins
    apply startsWith_iff.2
    apply isPrefix_of_append begins
    intro c member
    have isBreak := breaks c member
    rw [Bool.or_eq_true, decide_eq_true_eq, decide_eq_true_eq] at isBreak
    rcases isBreak with rfl | rfl
    · exact noFeed
    · exact noReturn

theorem trim_contentOf_eq_nil_iff (raw : List Char) : trim (contentOf raw) = [] ↔ trim raw = [] := by
  constructor
  · exact fun blank => by_contra fun nonblank => trim_contentOf_ne_nil nonblank blank
  · exact trim_eq_nil_of_subset (contentOf_isPrefix raw).subset

/-- What is asked of the content of a line holds of the line with its ending. -/
theorem prose_of_content {raw : List Char} (noHeading : startsWith "## " (contentOf raw) = false)
    (nonblank : trim (contentOf raw) ≠ []) :
    trim raw ≠ [] ∧ startsWith "## " raw = false := by
  rw [startsWith_contentOf (by decide) (by decide)] at noHeading
  rw [ne_eq, trim_contentOf_eq_nil_iff] at nonblank
  exact ⟨nonblank, noHeading⟩

variable {original : Registry} {reading next : Reading} {raw : List Char}

theorem Reading.readOutline_eq_ok (read : reading.readOutline settings raw = .ok next) :
    ∃ outline, reading.outline.read settings (contentOf raw) raw = .ok outline ∧
      next = { reading with outline := outline } := by
  unfold Reading.readOutline at read
  split at read
  · rename_i outline done
    cases read
    exact ⟨outline, done, rfl⟩
  · cases read

theorem Reading.read_eq_error {cause : UnknownCommand}
    (failed : reading.read settings raw = .error (cause, next)) :
    ∃ outline, reading.outline.read settings (contentOf raw) raw = .error (cause, outline) ∧
      next = { reading with outline := outline } := by
  have inOutline (failed : reading.readOutline settings raw = .error (cause, next)) :
      ∃ outline, reading.outline.read settings (contentOf raw) raw = .error (cause, outline) ∧
        next = { reading with outline := outline } := by
    unfold Reading.readOutline at failed
    split at failed
    · cases failed
    · rename_i outline done
      cases failed
      exact ⟨outline, done, rfl⟩
  unfold Reading.read at failed
  split at failed
  · split at failed
    · cases failed
    · exact inOutline failed
  · split at failed
    · cases failed
    · split at failed <;> cases failed
  · exact inOutline failed

/-- A line turns to another region, is read as a line of the outline, or is kept as it is. -/
theorem Reading.read_cases (read : reading.read settings raw = .ok next) :
    (∃ region, next = { reading with region := region }) ∨
    (∃ outline, reading.outline.read settings (contentOf raw) raw = .ok outline ∧
      next = { reading with outline := outline }) ∨
    (startsWith "## " (contentOf raw) = false ∧ trim (contentOf raw) ≠ [] ∧
      next = { reading with requirements := reading.requirements ++ raw }) := by
  obtain ⟨region, requirements, outline⟩ := reading
  unfold Reading.read at read
  cases region with
  | preamble =>
    dsimp only at read
    split at read
    · cases read
      exact .inl ⟨_, rfl⟩
    · exact .inr (.inl (readOutline_eq_ok read))
  | requirements =>
    dsimp only at read
    split at read
    · cases read
      exact .inl ⟨_, rfl⟩
    · rename_i noHeading
      split at read
      · cases read
        exact .inl ⟨.requirements, rfl⟩
      · rename_i nonblank
        cases read
        exact .inr (.inr ⟨by simpa using noHeading, nonblank, rfl⟩)
  | body => exact .inr (.inl (readOutline_eq_ok read))

theorem Reading.Sound.read (sound : reading.Sound settings original)
    (whole : reading.Whole settings) (single : rawLines raw = [raw])
    (read : reading.read settings raw = .ok next) : next.Sound settings original := by
  rcases Reading.read_cases read with ⟨region, rfl⟩ | ⟨outline, done, rfl⟩ |
    ⟨noHeading, nonblank, rfl⟩
  · exact ⟨sound.outline, sound.prose⟩
  · exact ⟨sound.outline.step whole.outline (step_read done), sound.prose⟩
  · refine ⟨sound.outline, ?_⟩
    intro line member
    rw [rawLines_append whole.requirements, single, List.mem_append] at member
    rcases member with inside | last
    · exact sound.prose line inside
    · rw [List.mem_singleton.1 last]
      exact prose_of_content noHeading nonblank

theorem Reading.Whole.read (whole : reading.Whole settings) (ended : Ended raw)
    (single : rawLines raw = [raw]) (read : reading.read settings raw = .ok next) :
    next.Whole settings := by
  rcases Reading.read_cases read with ⟨region, rfl⟩ | ⟨outline, done, rfl⟩ |
    ⟨noHeading, nonblank, rfl⟩
  · exact ⟨whole.requirements, whole.outline⟩
  · exact ⟨whole.requirements, whole.outline.step ended single (step_read done)⟩
  · exact ⟨whole.requirements.append ended, whole.outline⟩

theorem Reading.readAll_cons_eq_ok {raws : List (List Char)}
    (read : reading.readAll settings (raw :: raws) = .ok next) :
    ∃ middle, reading.read settings raw = .ok middle ∧ middle.readAll settings raws = .ok next := by
  obtain ⟨middle, first, later⟩ := exists_of_foldlM_cons read
  exact ⟨middle, Reading.take_eq_ok_iff.1 first, later⟩

theorem Reading.sound_of_whole {raws : List (List Char)} (sound : reading.Sound settings original)
    (whole : reading.Whole settings) (single : ∀ raw ∈ raws, rawLines raw = [raw])
    (ended : ∀ raw ∈ raws, Ended raw) (read : reading.readAll settings raws = .ok next) :
    next.Sound settings original ∧ next.Whole settings := by
  induction raws generalizing reading with
  | nil =>
    cases read
    exact ⟨sound, whole⟩
  | cons raw raws ih =>
    rw [List.forall_mem_cons] at single ended
    obtain ⟨middle, first, rest⟩ := Reading.readAll_cons_eq_ok read
    exact ih (sound.read whole single.1 first) (whole.read ended.1 single.1 first) single.2 ended.2
      rest

/-- After any number of lines, of which only the last one of the document need not be whole. -/
theorem Reading.sound_readAll {cs : List Char} {before after : List (List Char)}
    (shape : rawLines cs = before ++ after) (sound : reading.Sound settings original)
    (whole : reading.Whole settings) (read : reading.readAll settings before = .ok next) :
    next.Sound settings original := by
  have single : ∀ raw ∈ before, rawLines raw = [raw] := by
    intro raw member
    apply rawLines_of_mem
    rw [shape]
    exact List.mem_append_left _ member
  rcases List.eq_nil_or_concat before with rfl | ⟨start, last, rfl⟩
  · cases read
    exact sound
  · rw [List.concat_eq_append] at read shape single
    have ended : ∀ raw ∈ start, Ended raw := by
      intro raw member
      have inside : raw ∈ (rawLines cs).dropLast := by
        rw [shape, List.append_assoc, List.dropLast_append_of_ne_nil (by simp)]
        exact List.mem_append_left _ member
      exact ended_of_mem_dropLast inside
    rw [List.forall_mem_append] at single
    obtain ⟨middle, first, rest⟩ := exists_of_foldlM_append read
    obtain ⟨sound, whole⟩ := Reading.sound_of_whole sound whole single.1 ended first
    obtain ⟨final, done, same⟩ := Reading.readAll_cons_eq_ok rest
    cases same
    exact sound.read whole (single.2 last List.mem_cons_self) done

/-- A failure comes with the registry as it was reached in the line at fault. -/
theorem Reading.readAll_eq_error {raws : List (List Char)} {error : UnknownCommand}
    {left : Registry} (failed : reading.readAll settings raws = .error (error, left)) :
    ∃ before raw after middle reached, raws = before ++ raw :: after ∧
      reading.readAll settings before = .ok middle ∧
      middle.read settings raw = .error (error, reached) ∧ left = reached.outline.registry := by
  induction raws generalizing reading with
  | nil => cases failed
  | cons raw raws ih =>
    cases done : reading.read settings raw with
    | error fault =>
      rw [Reading.readAll, List.foldlM_cons, Reading.take, done] at failed
      cases failed
      exact ⟨[], raw, raws, reading, fault.2, rfl, rfl, done, rfl⟩
    | ok middle =>
      rw [Reading.readAll_cons_of_ok done] at failed
      obtain ⟨before, fault, after, final, reached, shape, read, fails, same⟩ := ih failed
      refine ⟨raw :: before, fault, after, final, reached, by rw [shape]; rfl, ?_, fails, same⟩
      rw [Reading.readAll_cons_of_ok done, read]

theorem exists_reading {registry : Registry} {document : String} {recovered : Recovered}
    (done : recover settings registry document = .ok recovered) :
    ∃ reading, (Reading.start registry).readAll settings (rawLines document.toList) =
      .ok reading ∧ recovered = reading.finish := by
  rw [recover_eq] at done
  cases read : (Reading.start registry).readAll settings (rawLines document.toList) with
  | error failure =>
    rw [read] at done
    cases done
  | ok reading =>
    rw [read] at done
    cases done
    exact ⟨reading, rfl, rfl⟩

/-- Reading a document conserves the registry. After any number of lines its groups and commands
are the same and in the same places, and the examples that were added are counted and can stand
in a document again. An example is open only under the heading of a command, which is in the
registry, so that the fence that closes it adds it there. The requirements hold neither blank lines
nor headings. This is so of what is given back at the end, and of what the line at fault has
reached if there is one. -/
theorem recover_conserves (settings : Settings) (registry : Registry) (document : String) :
    (∀ count reading,
      (Reading.start registry).readAll settings ((rawLines document.toList).take count) =
        .ok reading →
      reading.Sound settings registry ∧
      (∀ body, reading.outline.fence = some body → ∃ cursor command,
        reading.outline.cursor = some cursor ∧
        reading.outline.registry.find? cursor.group cursor.command = some command ∧
        ∀ line raw, settings.isFence line = true → ∃ next,
          reading.outline.read settings line raw = .ok next ∧ next.fence = none ∧
          next.examples = reading.outline.examples + 1 ∧
          next.registry.find? cursor.group cursor.command =
            some (command.addExample (String.ofList body))) ∧
      ∀ line ∈ (rawLines reading.requirements).dropLast, Ended line) ∧
    (∀ recovered, recover settings registry document = .ok recovered →
      ∃ reading,
        (Reading.start registry).readAll settings (rawLines document.toList) = .ok reading ∧
        recovered = reading.finish) ∧
    ∀ error left, recover settings registry document = .error (error, left) →
      ∃ count raw reading reached,
        (rawLines document.toList)[count]? = some raw ∧
        (Reading.start registry).readAll settings ((rawLines document.toList).take count) =
          .ok reading ∧
        reading.read settings raw = .error (error, reached) ∧
        reached.Sound settings registry ∧ left = reached.outline.registry ∧
        left = reading.outline.registry := by
  have sound {before after : List (List Char)} {reading : Reading}
      (shape : rawLines document.toList = before ++ after)
      (read : (Reading.start registry).readAll settings before = .ok reading) :
      reading.Sound settings registry :=
    Reading.sound_readAll shape (Reading.sound_start settings registry)
      (Reading.whole_start settings registry) read
  rw [recover_eq]
  refine ⟨?_, ?_, ?_⟩
  · intro count reading read
    have sound := sound (List.take_append_drop count _).symm read
    exact ⟨sound, fun body opened => sound.outline.read_closing opened,
      fun line member => ended_of_mem_dropLast member⟩
  · intro recovered done
    exact exists_reading done
  · intro error left failed
    cases read : (Reading.start registry).readAll settings (rawLines document.toList) with
    | ok reading =>
      rw [read] at failed
      cases failed
    | error failure =>
      rw [read] at failed
      cases failed
      obtain ⟨before, raw, after, reading, reached, shape, done, fails, same⟩ :=
        Reading.readAll_eq_error read
      have here := sound shape done
      obtain ⟨outline, fault, rfl⟩ := Reading.read_eq_error fails
      obtain ⟨apart, rfl⟩ := State.read_eq_error fault
      refine ⟨before.length, raw, reading, _, ?_, ?_, fails, ⟨?_, here.prose⟩, same, same⟩
      · rw [shape]
        simp
      · rw [shape, List.take_left]
        exact done
      · exact here.outline.left _ apart

/-- A document with requirements, an example, and a command that is not in the registry. -/
def strayDocument : String :=
  "## Requirements\n\nsome\n## C\n### G\n#### `/a`\n```\n1\n```\n#### `/b`\n"

theorem recover_conserves_stray :
    recover .standard ⟨[⟨"G", [.ofName "a"]⟩]⟩ strayDocument =
      .error (⟨"G", "b"⟩, ⟨[⟨"G", [{ Command.ofName "a" with examples := ["1\n"] }]⟩]⟩) ∧
    Registry.Extended .standard ⟨[⟨"G", [.ofName "a"]⟩]⟩
      ⟨[⟨"G", [{ Command.ofName "a" with examples := ["1\n"] }]⟩]⟩ := by
  have failed : recover .standard ⟨[⟨"G", [.ofName "a"]⟩]⟩ strayDocument =
      .error (⟨"G", "b"⟩, ⟨[⟨"G", [{ Command.ofName "a" with examples := ["1\n"] }]⟩]⟩) := by
    decide +kernel
  obtain ⟨-, -, fails⟩ :=
    recover_conserves .standard ⟨[⟨"G", [.ofName "a"]⟩]⟩ strayDocument
  obtain ⟨count, raw, reading, reached, -, -, -, sound, same, -⟩ := fails _ _ failed
  refine ⟨failed, ?_⟩
  rw [same]
  exact sound.outline.extended

end Document

end CommandReference
