import CommandReference.Proofs.Command.Places
import CommandReference.Proofs.Document.Preface

/-! What a rendered document gives back. Read with any registry, it comes to one step for
each of its commands in order, which adds the examples that the document shows to the
command of the same names, or ends the reading if there is none. -/
namespace CommandReference

theorem Registry.Distinct.update {registry : Registry} (distinct : registry.Distinct)
    {change : Command → Command} (keeps : ∀ command, (change command).name = command.name)
    (group name : String) : (registry.update group name change).Distinct := by
  rw [Registry.update_eq_mapCommands distinct]
  apply distinct.mapCommands
  intro found original
  dsimp only
  split
  · exact keeps original
  · rfl

namespace Document
open Text Outline

/-- The step that a command of the document makes, seen from the result. -/
def carryOver (settings : Settings) (found : Recovered) (entry : String × Command) :
    Except (UnknownCommand × Registry) Recovered :=
  if (found.registry.find? entry.1 entry.2.name).isSome then
    .ok { found with
      registry := found.registry.update entry.1 entry.2.name (carry settings entry.2)
      examples := found.examples + (shownExamples settings entry.2).length
      commands := found.commands + 1 }
  else .error (⟨entry.1, entry.2.name⟩, found.registry)

def summary (requirements : String) (state : State) : Recovered :=
  ⟨state.registry, requirements, state.examples, state.commands⟩

private theorem attachGroup_summary (settings : Settings) (requirements : String) (state : State)
    (group : Group) :
    (attachGroup settings state group).map (summary requirements) =
      (group.commands.map (group.name, ·)).foldlM (carryOver settings)
        (summary requirements state) := by
  rw [attachGroup, List.foldlM_map]
  apply foldlM_map_eq
  intro state command
  rw [attach, carryOver, summary]
  split <;> rfl

theorem foldlM_attachGroup_summary (settings : Settings) (requirements : String)
    (groups : List Group) (state : State) :
    (groups.foldlM (attachGroup settings) state).map (summary requirements) =
      (groups.flatMap fun group => group.commands.map (group.name, ·)).foldlM
        (carryOver settings) (summary requirements state) := by
  induction groups generalizing state with
  | nil => rfl
  | cons group groups ih =>
    rw [List.foldlM_cons, List.flatMap_cons, List.foldlM_append, ← attachGroup_summary]
    cases attachGroup settings state group with
    | error error => rfl
    | ok next => exact ih next

/-- A registry as its document is read: every command under what is read of its name. -/
def headedRegistry (registry : Registry) : Registry := ⟨registry.groups.map headedGroup⟩

/-- A rendered document is read back as one step for each command, in order. -/
theorem recover_render_eq_headed {settings : Settings} (valid : settings.validate = .ok settings)
    (presentable : Presentable settings) {old new : Registry}
    (headable : ∀ group ∈ old.groups, Headable group.name)
    (readable : ∀ group ∈ old.groups, ∀ command ∈ group.commands, Readable settings new command)
    (lines : List (List Char)) (prose : ∀ line ∈ lines, Prose line) :
    recover settings new (render settings (requirementsOf lines) old) =
      (headedRegistry old).entries.foldlM (carryOver settings)
        ⟨new, requirementsOf lines, 0, 0⟩ := by
  rw [recover_render_eq valid presentable headable readable lines prose]
  exact foldlM_attachGroup_summary settings _ (old.groups.map headedGroup) _

theorem headedRegistry_of_plain {registry : Registry}
    (plain : ∀ group ∈ registry.groups, ∀ command ∈ group.commands, '`' ∉ command.name.toList) :
    headedRegistry registry = registry := by
  have groups : registry.groups.map headedGroup = registry.groups := by
    refine (List.map_congr_left ?_).trans (List.map_id _)
    intro group inRegistry
    have commands : group.commands.map headed = group.commands := by
      refine (List.map_congr_left ?_).trans (List.map_id _)
      intro command inGroup
      rw [headed, headedName_of_plain (plain group inRegistry command inGroup)]
      rfl
    rw [headedGroup, commands]
    rfl
  rw [headedRegistry, groups]

/-- Where no name holds a backtick, the commands of the document are those of the registry. -/
theorem recover_render_eq_foldlM {settings : Settings} (valid : settings.validate = .ok settings)
    (presentable : Presentable settings) {old new : Registry}
    (headable : ∀ group ∈ old.groups, Headable group.name)
    (legible : ∀ group ∈ old.groups, ∀ command ∈ group.commands, Legible settings new command)
    (lines : List (List Char)) (prose : ∀ line ∈ lines, Prose line) :
    recover settings new (render settings (requirementsOf lines) old) =
      old.entries.foldlM (carryOver settings) ⟨new, requirementsOf lines, 0, 0⟩ := by
  have readable := fun group inRegistry command inGroup =>
    (legible group inRegistry command inGroup).readable
  have plain := fun group inRegistry command inGroup =>
    (legible group inRegistry command inGroup).plain
  rw [recover_render_eq_headed valid presentable headable readable lines prose,
    headedRegistry_of_plain plain]

theorem carry_name (settings : Settings) (old command : Command) :
    (carry settings old command).name = command.name := rfl

def carryAll (settings : Settings) (entries : List (String × Command)) (registry : Registry) :
    Registry :=
  entries.foldl (fun current entry =>
    current.update entry.1 entry.2.name (carry settings entry.2)) registry

private theorem isSome_find?_carryAll (settings : Settings) (entries : List (String × Command))
    (registry : Registry) (group name : String) :
    ((carryAll settings entries registry).find? group name).isSome =
      (registry.find? group name).isSome := by
  induction entries generalizing registry with
  | nil => rfl
  | cons entry entries ih =>
    rw [carryAll, List.foldl_cons]
    exact (ih _).trans
      (registry.isSome_find?_update (carry_name settings entry.2) _ _ group name)

theorem foldlM_carryOver_of_known (settings : Settings) (entries : List (String × Command))
    {found : Recovered} (distinct : found.registry.Distinct)
    (known : ∀ entry ∈ entries, (found.registry.find? entry.1 entry.2.name).isSome = true) :
    entries.foldlM (carryOver settings) found = .ok { found with
      registry := carryAll settings entries found.registry
      examples := found.examples + (entries.flatMap (shownExamples settings ·.2)).length
      commands := found.commands + entries.length } := by
  induction entries generalizing found with
  | nil => rfl
  | cons entry entries ih =>
    have keeps := carry_name settings entry.2
    let next : Recovered := { found with
      registry := found.registry.update entry.1 entry.2.name (carry settings entry.2)
      examples := found.examples + (shownExamples settings entry.2).length
      commands := found.commands + 1 }
    have here : carryOver settings found entry = .ok next :=
      if_pos (known entry List.mem_cons_self)
    have later : ∀ other ∈ entries, (next.registry.find? other.1 other.2.name).isSome = true := by
      intro other member
      rw [Registry.isSome_find?_update _ keeps]
      exact known other (List.mem_cons_of_mem _ member)
    have rest : entries.foldlM (carryOver settings) next = _ :=
      ih (distinct.update keeps _ _) later
    rw [List.foldlM_cons, here]
    refine rest.trans ?_
    simp only [next, carryAll, List.foldl_cons, List.flatMap_cons, List.length_append,
      List.length_cons, Except.ok.injEq, Recovered.mk.injEq, true_and]
    omega

private theorem foldlM_carryOver_of_unknown (settings : Settings) (before : List (String × Command))
    (missing : String × Command) (after : List (String × Command)) {found : Recovered}
    (distinct : found.registry.Distinct)
    (known : ∀ entry ∈ before, (found.registry.find? entry.1 entry.2.name).isSome = true)
    (unknown : (found.registry.find? missing.1 missing.2.name).isSome = false) :
    (before ++ missing :: after).foldlM (carryOver settings) found =
      .error (⟨missing.1, missing.2.name⟩, carryAll settings before found.registry) := by
  have still := isSome_find?_carryAll settings before found.registry missing.1 missing.2.name
  rw [List.foldlM_append, foldlM_carryOver_of_known settings before distinct known]
  change ((missing :: after).foldlM (carryOver settings) _) = _
  rw [List.foldlM_cons, carryOver, still, unknown]
  rfl

/-- A registry whose document can be read back. -/
@[mk_iff]
structure Recoverable (settings : Settings) (registry : Registry) : Prop where
  distinct : registry.Distinct
  headable : ∀ group ∈ registry.groups, Headable group.name
  legible : ∀ group ∈ registry.groups, ∀ command ∈ group.commands,
    Legible settings registry command

instance (settings : Settings) (registry : Registry) : Decidable (Recoverable settings registry) :=
  decidable_of_iff _ (recoverable_iff settings registry).symm

/-- A command with what the part of another command shows: its examples and, where its help
text begins with one, the usage line. -/
def handedOn (settings : Settings) (old command : Command) : Command :=
  { command with
    usage := ((usageOf old).map String.ofList).or command.usage
    examples := shownExamples settings old }

/-- The commands of a registry, each with what the entry of its names shows, if there is one. -/
def handedOver (settings : Settings) (entries : List (String × Command)) (registry : Registry) :
    Registry :=
  registry.mapCommands fun group command =>
    (Registry.entryNamed? entries group command.name).elim command (handedOn settings · command)

theorem carryAll_eq_handedOver (settings : Settings) {entries : List (String × Command)}
    (single : (entries.map Registry.entryKey).Nodup) {registry : Registry}
    (distinct : registry.Distinct)
    (bare : ∀ group ∈ registry.groups, ∀ command ∈ group.commands, command.examples = []) :
    carryAll settings entries registry = handedOver settings entries registry := by
  rw [carryAll, Registry.foldl_update_eq_mapCommands (carry settings) (carry_name settings) entries
    single distinct]
  apply Registry.mapCommands_congr
  intro group inRegistry command inGroup
  cases Registry.entryNamed? entries group.name command.name with
  | none => rfl
  | some old =>
    simp [carry, addExamples, noteUsage, handedOn, bare group inRegistry command inGroup]

private theorem shownExamples_ne_nil (settings : Settings) (command : Command) :
    shownExamples settings command ≠ [] := by
  rw [shownExamples]
  split
  · exact List.cons_ne_nil _ _
  · assumption

theorem commandPart_handedOn (settings : Settings) {old command : Command}
    (name : old.name = command.name) (about : aboutPart old = aboutPart command) :
    commandPart settings (handedOn settings old command) = commandPart settings old := by
  have same : shownExamples settings (handedOn settings old command) =
      shownExamples settings old := if_neg (shownExamples_ne_nil settings old)
  rw [commandPart_eq, commandPart_eq, same, about, name]
  rfl

/-- A document does not change when what it shows is handed back to the commands. -/
theorem render_handedOn (settings : Settings) (requirements : String) (registry : Registry) :
    render settings requirements (registry.mapCommands fun _ command =>
      handedOn settings command command) = render settings requirements registry := by
  let change (group : Group) : Group :=
    { group with commands := group.commands.map fun command => handedOn settings command command }
  have index : indexEntry ∘ change = indexEntry := by
    funext group
    simp [indexEntry, change, Group.commandNames, Function.comp_def, handedOn]
  have part (command : Command) : commandPart settings (handedOn settings command command) =
      commandPart settings command := commandPart_handedOn settings rfl rfl
  have sections : groupSection settings ∘ change = groupSection settings := by
    funext group
    simp [groupSection, change, Function.comp_def, part]
  have shown : ((!settings.isExcluded ·.name) ∘ change) = (!settings.isExcluded ·.name) := rfl
  change render settings requirements ⟨registry.groups.map change⟩ = _
  rw [render, render, List.filter_map, shown, List.map_map, List.map_map, index, sections]

theorem isSome_find?_of_mem_entries {registry : Registry} (distinct : registry.Distinct)
    {entry : String × Command} (member : entry ∈ registry.entries) :
    (registry.find? entry.1 entry.2.name).isSome = true := by
  rw [Registry.entries, List.mem_flatMap] at member
  obtain ⟨group, inRegistry, inside⟩ := member
  obtain ⟨command, inGroup, rfl⟩ := List.mem_map.1 inside
  rw [distinct.find?_of_mem inRegistry inGroup]
  rfl

def withoutExamples (registry : Registry) : Registry :=
  registry.mapCommands fun _ command => { command with examples := [] }

theorem handedOver_withoutExamples (settings : Settings) {registry : Registry}
    (distinct : registry.Distinct) :
    handedOver settings registry.entries (withoutExamples registry) =
      registry.mapCommands fun _ command => handedOn settings command command := by
  rw [handedOver, withoutExamples, Registry.mapCommands_mapCommands]
  apply Registry.mapCommands_congr
  intro group inRegistry command inGroup
  dsimp only
  rw [distinct.entryNamed?_entries, distinct.find?_of_mem inRegistry inGroup]
  rfl

/-- Recovery undoes rendering. A registry without its examples gets back, from the document
that shows them, every example, or the placeholder where a command had none, together with
the requirements; and the document of the result is the same. -/
theorem recover_render {settings : Settings} (valid : settings.validate = .ok settings)
    (presentable : Presentable settings) {registry : Registry}
    (recoverable : Recoverable settings registry) (lines : List (List Char))
    (prose : ∀ line ∈ lines, Prose line) :
    recover settings (withoutExamples registry)
        (render settings (requirementsOf lines) registry) =
      .ok { registry := registry.mapCommands fun _ command => handedOn settings command command
            requirements := requirementsOf lines
            examples := (registry.entries.flatMap (shownExamples settings ·.2)).length
            commands := registry.commandCount } ∧
    render settings (requirementsOf lines)
        (registry.mapCommands fun _ command => handedOn settings command command) =
      render settings (requirementsOf lines) registry := by
  have distinct := recoverable.distinct
  have keeps : Registry.KeepsNames fun _ command => { command with examples := [] } :=
    fun _ _ => rfl
  have legible : ∀ group ∈ registry.groups, ∀ command ∈ group.commands,
      Legible settings (withoutExamples registry) command := by
    intro group inRegistry command inGroup
    exact (recoverable.legible group inRegistry command inGroup).congr
      Registry.groupNames_mapCommands.symm
  have known : ∀ entry ∈ registry.entries,
      ((withoutExamples registry).find? entry.1 entry.2.name).isSome = true := by
    intro entry member
    rw [withoutExamples, Registry.isSome_find?_mapCommands keeps]
    exact isSome_find?_of_mem_entries distinct member
  have bare : ∀ group ∈ (withoutExamples registry).groups, ∀ command ∈ group.commands,
      command.examples = [] := by
    intro group inRegistry command inGroup
    obtain ⟨original, _, rfl⟩ := List.mem_map.1 inRegistry
    obtain ⟨before, _, rfl⟩ := List.mem_map.1 inGroup
    rfl
  have cleared : (withoutExamples registry).Distinct := distinct.mapCommands keeps
  refine ⟨?_, render_handedOn settings _ registry⟩
  rw [recover_render_eq_foldlM valid presentable recoverable.headable legible lines prose,
    foldlM_carryOver_of_known settings _ cleared known,
    carryAll_eq_handedOver settings distinct.entries_nodup cleared bare,
    handedOver_withoutExamples settings distinct, Registry.commandCount_eq_length_entries]
  simp only [Nat.zero_add]

/-- Two groups, with a command that has examples and one that has none. -/
def sample (help : String) : Registry :=
  ⟨[⟨"Math", [{ Command.ofName "add" with help := help, examples := ["/add 1 2\n", ""] },
      .ofName "sub"]⟩,
    ⟨"Help", [.ofName "lalib?"]⟩]⟩

def sampleProse : List (List Char) := ["- one".toList, "### two".toList]

theorem recover_render_sample :
    Settings.standard.validate = .ok .standard ∧ Presentable .standard ∧
    Recoverable .standard (sample "`/add 1 2`\n### Details") ∧ (∀ line ∈ sampleProse, Prose line) ∧
    recover .standard (withoutExamples (sample "`/add 1 2`\n### Details"))
        (render .standard (requirementsOf sampleProse) (sample "`/add 1 2`\n### Details")) =
      .ok { registry := (sample "`/add 1 2`\n### Details").mapCommands fun _ command =>
              handedOn .standard command command
            requirements := requirementsOf sampleProse
            examples := 4
            commands := 3 } := by
  have valid : Settings.standard.validate = .ok .standard := by decide +kernel
  have presentable : Presentable .standard := by decide +kernel
  have recoverable : Recoverable .standard (sample "`/add 1 2`\n### Details") := by decide +kernel
  have prose : ∀ line ∈ sampleProse, Prose line := by decide +kernel
  exact ⟨valid, presentable, recoverable, prose,
    (recover_render valid presentable recoverable sampleProse prose).1⟩

/-- No line before the examples of a command is a heading of the third, fourth or fifth level. -/
def Headless (registry : Registry) : Prop :=
  ∀ group ∈ registry.groups, ∀ command ∈ group.commands,
    ∀ raw ∈ rawLines (aboutPart command).toList, ∀ mark ∈ ["### ", "#### ", "##### "],
      startsWith mark (contentOf raw) = false

theorem quiet_of_headless {settings : Settings} {registry : Registry} {line : List Char}
    (noFence : settings.isFence line = false)
    (headless : ∀ mark ∈ ["### ", "#### ", "##### "], startsWith mark line = false) :
    Quiet settings registry line := by
  have noGroup := headless "### " (by simp)
  have noCommand := headless "#### " (by simp)
  refine ⟨noFence, headless "##### " (by simp), ?_⟩
  rw [← after?_eq_none_iff] at noGroup noCommand
  rw [isHeading, noGroup, noCommand]

private theorem Legible.of_headless {settings : Settings} {first : Registry} {command : Command}
    (legible : Legible settings first command)
    (headless : ∀ raw ∈ rawLines (aboutPart command).toList, ∀ mark ∈ ["### ", "#### ", "##### "],
      startsWith mark (contentOf raw) = false) (second : Registry) :
    Legible settings second command := by
  refine { legible with about := fun raw member => ?_ }
  exact quiet_of_headless (legible.about raw member).noFence (headless raw member)

instance (registry : Registry) : Decidable (Headless registry) :=
  inferInstanceAs (Decidable (∀ group ∈ registry.groups, ∀ command ∈ group.commands,
    ∀ raw ∈ rawLines (aboutPart command).toList, ∀ mark ∈ ["### ", "#### ", "##### "],
      startsWith mark (contentOf raw) = false))

/-- Whether a registry has a command of these names. -/
def knows (registry : Registry) (entry : String × Command) : Bool :=
  (registry.find? entry.1 entry.2.name).isSome

/-- No example is lost silently when the commands change. If the new registry has all
commands of the document, each of them gets what the document shows for it and no other
command gets anything. If it lacks some, the first of these in the document is reported,
and the commands before it have got what is theirs. -/
theorem recover_render_changed {settings : Settings} (valid : settings.validate = .ok settings)
    (presentable : Presentable settings) {old new : Registry}
    (recoverable : Recoverable settings old) (headless : Headless old) (distinct : new.Distinct)
    (bare : ∀ group ∈ new.groups, ∀ command ∈ group.commands, command.examples = [])
    (lines : List (List Char)) (prose : ∀ line ∈ lines, Prose line) :
    ((∀ entry ∈ old.entries, knows new entry = true) →
      recover settings new (render settings (requirementsOf lines) old) =
        .ok { registry := handedOver settings old.entries new
              requirements := requirementsOf lines
              examples := (old.entries.flatMap (shownExamples settings ·.2)).length
              commands := old.commandCount }) ∧
    ∀ missing, old.entries.find? (!knows new ·) = some missing →
      recover settings new (render settings (requirementsOf lines) old) =
        .error (⟨missing.1, missing.2.name⟩,
          handedOver settings (old.entries.takeWhile (knows new)) new) := by
  have legible : ∀ group ∈ old.groups, ∀ command ∈ group.commands,
      Legible settings new command := by
    intro group inRegistry command inGroup
    exact (recoverable.legible group inRegistry command inGroup).of_headless
      (headless group inRegistry command inGroup) new
  have single := recoverable.distinct.entries_nodup
  rw [recover_render_eq_foldlM valid presentable recoverable.headable legible lines prose]
  constructor
  · intro known
    rw [foldlM_carryOver_of_known settings _ distinct known,
      carryAll_eq_handedOver settings single distinct bare,
      Registry.commandCount_eq_length_entries]
    simp only [Nat.zero_add]
  · intro missing found
    obtain ⟨unknown, before, after, shape, passed⟩ := List.find?_eq_some_iff_append.1 found
    have known : ∀ entry ∈ before, knows new entry = true := by
      intro entry member
      simpa using passed entry member
    have unknown : knows new missing = false := by simpa using unknown
    have taken : old.entries.takeWhile (knows new) = before := by
      rw [shape, List.takeWhile_append_of_pos known, List.takeWhile_cons_of_neg (by simp [unknown]),
        List.append_nil]
    have beforeSingle : (before.map Registry.entryKey).Nodup := by
      rw [shape, List.map_append] at single
      exact (List.nodup_append.1 single).1
    have ended : (before ++ missing :: after).foldlM (carryOver settings)
        ⟨new, requirementsOf lines, 0, 0⟩ = _ :=
      foldlM_carryOver_of_unknown settings before missing after distinct known unknown
    rw [taken, shape, ended, carryAll_eq_handedOver settings beforeSingle distinct bare]

/-- The commands of the sample in another order, with two more. -/
def grownSample : Registry :=
  ⟨[⟨"Help", [.ofName "news", .ofName "lalib?"]⟩,
    ⟨"Math", [.ofName "mul", .ofName "sub", .ofName "add"]⟩]⟩

/-- Some commands of the sample, with one that has moved to another group. -/
def shrunkSample : Registry :=
  ⟨[⟨"Math", [.ofName "add"]⟩, ⟨"Help", [.ofName "sub", .ofName "lalib?"]⟩]⟩

theorem recover_render_changed_sample :
    recover .standard grownSample (render .standard (requirementsOf sampleProse) (sample "Adds.")) =
      .ok { registry := ⟨[⟨"Help", [.ofName "news",
                { Command.ofName "lalib?" with examples := ["some code here\n"] }]⟩,
              ⟨"Math", [.ofName "mul", { Command.ofName "sub" with examples := ["some code here\n"] },
                { Command.ofName "add" with examples := ["/add 1 2\n", ""] }]⟩]⟩
            requirements := requirementsOf sampleProse
            examples := 4
            commands := 3 } ∧
    recover .standard shrunkSample (render .standard (requirementsOf sampleProse) (sample "Adds.")) =
      .error (⟨"Math", "sub"⟩,
        ⟨[⟨"Math", [{ Command.ofName "add" with examples := ["/add 1 2\n", ""] }]⟩,
          ⟨"Help", [.ofName "sub", .ofName "lalib?"]⟩]⟩) := by
  have valid : Settings.standard.validate = .ok .standard := by decide +kernel
  have presentable : Presentable .standard := by decide +kernel
  have recoverable : Recoverable .standard (sample "Adds.") := by decide +kernel
  have headless : Headless (sample "Adds.") := by decide +kernel
  have prose : ∀ line ∈ sampleProse, Prose line := by decide +kernel
  have grown := recover_render_changed valid presentable recoverable headless
    (show grownSample.Distinct by decide +kernel) (by decide +kernel) sampleProse prose
  have shrunk := recover_render_changed valid presentable recoverable headless
    (show shrunkSample.Distinct by decide +kernel) (by decide +kernel) sampleProse prose
  constructor
  · rw [grown.1 (by decide +kernel)]
    decide +kernel
  · rw [shrunk.2 ("Math", .ofName "sub") (by decide +kernel)]
    decide +kernel

end Document

end CommandReference
