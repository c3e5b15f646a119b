import CommandReference.Proofs.Document.Conservation
import CommandReference.Proofs.Document.RoundTrip
import CommandReference.Proofs.Source.Names

/-! Reading a rendered document for the registry it was rendered for. Every example that it shows
goes to the command that a look-up finds under what is read of the heading. If that is always the
command the example was shown for, the document of the result is the same; if not, some command
is left without examples, its placeholder is shown once more, and the document has grown. -/
namespace CommandReference
open Text

/-- A registry in which the heading of every command leads back to it. -/
@[mk_iff]
structure Registry.Addressable (registry : Registry) : Prop where
  plain : ∀ group ∈ registry.groups, ∀ name ∈ group.commandNames, '`' ∉ name.toList
  distinct : ∀ group ∈ registry.groups, group.commandNames.Nodup

instance (registry : Registry) : Decidable registry.Addressable :=
  decidable_of_iff _ (Registry.addressable_iff registry).symm

theorem forall₂_exists_left {α β : Type} {R : α → β → Prop} {first : List α} {second : List β}
    (related : List.Forall₂ R first second) {b : β} (member : b ∈ second) :
    ∃ a ∈ first, R a b := by
  induction related with
  | nil => cases member
  | @cons x y first second head tail ih =>
    rcases List.mem_cons.1 member with rfl | inside
    · exact ⟨x, List.mem_cons_self, head⟩
    · obtain ⟨a, present, relation⟩ := ih inside
      exact ⟨a, List.mem_cons_of_mem _ present, relation⟩

theorem map_eq_of_forall₂ {α β γ : Type} {R : α → β → Prop} {f : α → γ} {g : β → γ}
    {first : List α} {second : List β} (related : List.Forall₂ R first second)
    (same : ∀ a ∈ first, ∀ b ∈ second, R a b → f a = g b) : first.map f = second.map g := by
  induction related with
  | nil => rfl
  | cons head tail ih =>
    rw [List.map_cons, List.map_cons, same _ List.mem_cons_self _ List.mem_cons_self head, ih]
    intro a inFirst b inSecond
    exact same a (List.mem_cons_of_mem _ inFirst) b (List.mem_cons_of_mem _ inSecond)

/-- The names in a registry. -/
def Registry.contents (registry : Registry) : List (String × List String) :=
  registry.groups.map fun group => (group.name, group.commandNames)

theorem Registry.addressable_congr {first second : Registry}
    (same : first.contents = second.contents) : first.Addressable ↔ second.Addressable := by
  have names (registry : Registry) : registry.Addressable ↔
      ∀ item ∈ registry.contents, (∀ name ∈ item.2, '`' ∉ name.toList) ∧ item.2.Nodup := by
    simp only [Registry.addressable_iff, Registry.contents, List.forall_mem_map, forall_and]
  rw [names, names, same]

theorem Registry.Extended.contents_eq {settings : Settings} {old new : Registry}
    (extended : old.Extended settings new) : new.contents = old.contents := by
  symm
  apply map_eq_of_forall₂ extended
  intro first _ second _ related
  have commands : first.commandNames = second.commandNames :=
    map_eq_of_forall₂ related.commands fun _ _ _ _ same => same.name.symm
  rw [related.name, commands]

theorem Registry.Extended.addressable {settings : Settings} {old new : Registry}
    (extended : old.Extended settings new) (addressable : old.Addressable) : new.Addressable :=
  (Registry.addressable_congr extended.contents_eq).2 addressable

theorem Registry.Extended.distinct {settings : Settings} {old new : Registry}
    (extended : old.Extended settings new) (distinct : old.Distinct) : new.Distinct where
  groups := by
    have names : old.groupNames = new.groupNames :=
      map_eq_of_forall₂ extended fun _ _ _ _ related => related.name.symm
    rw [← names]
    exact distinct.groups
  commands := by
    intro group member
    obtain ⟨before, inside, related⟩ := forall₂_exists_left extended member
    have names : before.commandNames = group.commandNames :=
      map_eq_of_forall₂ related.commands fun _ _ _ _ same => same.name.symm
    rw [← names]
    exact distinct.commands before inside

private theorem Registry.Extended.isSome_find? {settings : Settings} {old new : Registry}
    (extended : old.Extended settings new) (distinct : old.Distinct) :
    ∀ entry ∈ new.entries, (old.find? entry.1 entry.2.name).isSome = true := by
  intro entry member
  obtain ⟨group, inRegistry, inside⟩ := List.mem_flatMap.1 member
  obtain ⟨command, inGroup, rfl⟩ := List.mem_map.1 inside
  obtain ⟨holder, inOld, related⟩ := forall₂_exists_left extended inRegistry
  obtain ⟨before, inHolder, same⟩ := forall₂_exists_left related.commands inGroup
  rw [related.name, same.name, distinct.find?_of_mem inOld inHolder]
  rfl

namespace Document
open Outline

variable {settings : Settings}

theorem aboutPart_of_extended {old new : Command} (extended : old.Extended settings new) :
    aboutPart new = aboutPart old := by
  rw [aboutPart, aboutPart, extended.help, extended.named, extended.unnamed]

/-- What is shown about the commands holds no fence and no heading. -/
@[mk_iff]
structure Unobtrusive (settings : Settings) (registry : Registry) : Prop where
  noFence : ∀ group ∈ registry.groups, ∀ command ∈ group.commands,
    ∀ raw ∈ rawLines (aboutPart command).toList, settings.isFence (contentOf raw) = false
  headless : Headless registry

instance (registry : Registry) : Decidable (Unobtrusive settings registry) :=
  decidable_of_iff _ (unobtrusive_iff settings registry).symm

/-- The document of a registry with more examples can be read. -/
theorem readable_of_extended {registry grown : Registry} (fresh : registry.Fresh)
    (unobtrusive : Unobtrusive settings registry) (extended : registry.Extended settings grown)
    (reader : Registry) :
    (∀ group ∈ grown.groups, Headable group.name) ∧
    ∀ group ∈ grown.groups, ∀ command ∈ group.commands, Readable settings reader command := by
  constructor
  · intro group member
    obtain ⟨before, inside, related⟩ := forall₂_exists_left extended member
    rw [related.name]
    exact fresh.headable before inside
  · intro group member command inGroup
    obtain ⟨holder, inside, related⟩ := forall₂_exists_left extended member
    obtain ⟨before, inHolder, same⟩ := forall₂_exists_left related.commands inGroup
    have simple := fresh.commands holder inside before inHolder
    refine ⟨?_, ?_, ?_⟩
    · rw [same.name]
      exact simple.oneLine
    · rw [aboutPart_of_extended same]
      intro raw shown
      exact quiet_of_headless (unobtrusive.noFence holder inside before inHolder raw shown)
        (unobtrusive.headless holder inside before inHolder raw shown)
    · obtain ⟨added, grown, fenceable⟩ := same.examples
      rw [grown, simple.bare, List.nil_append]
      exact fenceable

/-- What is kept of a text of whole lines can be kept again. -/
theorem exists_prose {cs : List Char} (ended : Ended cs)
    (kept : ∀ line ∈ rawLines cs, trim line ≠ [] ∧ startsWith "## " line = false) :
    ∃ lines, cs = (requirementsOf lines).toList ∧ ∀ line ∈ lines, Prose line := by
  obtain ⟨lines, rfl, oneLine⟩ := ended.exists_lines
  refine ⟨lines, String.toList_ofList.symm, fun line member => ?_⟩
  have inside : line ++ ['\n'] ∈ rawLines (lines.flatMap (· ++ ['\n'])) := by
    rw [rawLines_flatMap lines oneLine]
    exact List.mem_map_of_mem member
  obtain ⟨nonblank, noHeading⟩ := kept _ inside
  refine ⟨oneLine line member, fun blank => nonblank ?_, ?_⟩
  · rw [trim_eq_nil_iff] at blank ⊢
    rw [List.forall_mem_append]
    exact ⟨blank, List.forall_mem_singleton.2 (by decide)⟩
  · by_contra begins
    have begins := startsWith_of_isPrefix (List.prefix_append line ['\n']) (by simpa using begins)
    rw [noHeading] at begins
    cases begins

theorem extended_of_recover {registry : Registry} {document : String} {recovered : Recovered}
    (done : recover settings registry document = .ok recovered) :
    registry.Extended settings recovered.registry := by
  obtain ⟨reading, read, rfl⟩ := exists_reading done
  exact (Reading.sound_readAll (List.append_nil _).symm (Reading.sound_start settings registry)
    (Reading.whole_start settings registry) read).outline.extended

/-- The requirements of a document of whole lines are whole lines themselves. -/
theorem prose_of_recover {registry : Registry} {document : String} {recovered : Recovered}
    (ended : Ended document.toList)
    (done : recover settings registry document = .ok recovered) :
    ∃ lines, recovered.requirements = requirementsOf lines ∧ ∀ line ∈ lines, Prose line := by
  obtain ⟨reading, read, rfl⟩ := exists_reading done
  obtain ⟨sound, whole⟩ := Reading.sound_of_whole (Reading.sound_start settings registry)
    (Reading.whole_start settings registry) (fun _ member => rawLines_of_mem member)
    (fun _ member => ended.of_mem_rawLines member) read
  obtain ⟨lines, shape, prose⟩ := exists_prose whole.requirements sound.prose
  exact ⟨lines, by rw [Reading.finish, shape, String.ofList_toList], prose⟩

theorem preface_congr {first second : Registry} (same : first.contents = second.contents) :
    preface settings first = preface settings second := by
  let entry (item : String × List String) : String :=
    "\n- " ++ item.1 ++ " (" ++ joined ", " item.2 ++ ")"
  have index (registry : Registry) :
      (registry.groups.filter (!settings.isExcluded ·.name)).map indexEntry =
        (registry.contents.filter (!settings.isExcluded ·.1)).map entry := by
    rw [Registry.contents, List.filter_map, List.map_map]
    rfl
  rw [preface, preface, index, index, same]

/-- The heading of a command and all that stands before its first example. -/
def commandFrame (command : Command) : List Char :=
  (commandGap ++ "#### `/" ++ command.name ++ "`\n" ++ aboutPart command ++
    "##### Examples\n\n").toList

def groupFrame (group : Group) : List Char :=
  (sectionGap ++ "### " ++ group.name).toList ++ group.commands.flatMap commandFrame

/-- The examples of a command in their fences. -/
def exampleText (settings : Settings) (command : Command) : List Char :=
  command.examples.flatMap fun text => (examplePart settings text).toList

/-- The examples of a command in their fences, or the placeholder for them. -/
def shownText (settings : Settings) (command : Command) : List Char :=
  (shownExamples settings command).flatMap fun text => (examplePart settings text).toList

private theorem toList_gapped (command : Command) :
    (commandGap ++ commandPart settings command).toList =
      commandFrame command ++ shownText settings command := by
  rw [commandPart_eq, commandFrame, shownText]
  simp [toList_concat, List.flatMap_map]

private theorem length_flatMap_append {α β : Type} (items : List α) (f g : α → List β) :
    (items.flatMap fun item => f item ++ g item).length =
      (items.flatMap f).length + (items.flatMap g).length := by
  induction items with
  | nil => rfl
  | cons item items ih =>
    simp only [List.flatMap_cons, List.length_append, ih]
    omega

private theorem toList_groupSection (group : Group) :
    (groupSection settings group).toList =
      (sectionGap ++ "### " ++ group.name).toList ++
        group.commands.flatMap fun command => commandFrame command ++ shownText settings command := by
  rw [groupSection, String.toList_append, toList_concat, List.flatMap_map]
  simp only [toList_gapped]

private theorem length_groupSection (group : Group) :
    (groupSection settings group).toList.length =
      (groupFrame group).length + (group.commands.flatMap (shownText settings)).length := by
  rw [toList_groupSection, groupFrame, List.length_append, length_flatMap_append,
    List.length_append]
  omega

/-- A document without what is shown for the examples. -/
def frame (settings : Settings) (requirements : String) (registry : Registry) : List Char :=
  (preface settings registry ++ "## Requirements\n\n" ++ requirements ++ sectionGap ++
    "## Commands\n\n").toList ++ registry.groups.flatMap groupFrame

private theorem length_render (requirements : String) (registry : Registry) :
    (render settings requirements registry).toList.length =
      (frame settings requirements registry).length + registry.tally (shownText settings) := by
  have sections : (concat (registry.groups.map (groupSection settings))).toList.length =
      (registry.groups.flatMap groupFrame).length + registry.tally (shownText settings) := by
    rw [toList_concat, List.flatMap_map, Registry.tally]
    induction registry.groups with
    | nil => rfl
    | cons group groups ih =>
      simp only [List.flatMap_cons, List.length_append, ih, length_groupSection]
      omega
  rw [render_eq, String.toList_append, List.length_append, sections, frame, List.length_append]
  omega

theorem frame_of_extended {registry grown : Registry} (extended : registry.Extended settings grown)
    (requirements : String) :
    frame settings requirements grown = frame settings requirements registry := by
  have groups : registry.groups.map groupFrame = grown.groups.map groupFrame := by
    apply map_eq_of_forall₂ extended
    intro first _ second _ related
    have commands : first.commands.map commandFrame = second.commands.map commandFrame := by
      apply map_eq_of_forall₂ related.commands
      intro old _ new _ same
      rw [commandFrame, commandFrame, same.name, aboutPart_of_extended same]
    rw [groupFrame, groupFrame, related.name, List.flatMap_def, List.flatMap_def, commands]
  rw [frame, frame, preface_congr extended.contents_eq, List.flatMap_def, List.flatMap_def, groups]

/-- Commands of which those with examples are the first of their names, and can be named in a
heading. -/
def Attributed (seen : List String) : List Command → Prop
  | [] => True
  | command :: later =>
    (command.examples ≠ [] → '`' ∉ command.name.toList ∧ command.name ∉ seen) ∧
      Attributed (command.name :: seen) later

private theorem attributed_of_bare (commands : List Command) (seen : List String)
    (bare : ∀ command ∈ commands, command.examples = []) : Attributed seen commands := by
  induction commands generalizing seen with
  | nil => trivial
  | cons command commands ih =>
    rw [List.forall_mem_cons] at bare
    exact ⟨fun some => absurd bare.1 some, ih _ bare.2⟩

theorem Attributed.updateFirst {name : String} (plain : '`' ∉ name.toList)
    {change : Command → Command} (keeps : ∀ command, (change command).name = command.name)
    {commands : List Command} {seen : List String} (unseen : name ∉ seen)
    (attributed : Attributed seen commands) :
    Attributed seen (updateFirst (·.name == name) change commands) := by
  induction commands generalizing seen with
  | nil => trivial
  | cons command commands ih =>
    unfold CommandReference.updateFirst
    split
    · rename_i here
      have same : command.name = name := by simpa using here
      refine ⟨fun _ => ?_, ?_⟩
      · rw [keeps, same]
        exact ⟨plain, unseen⟩
      · rw [keeps]
        exact attributed.2
    · rename_i other
      refine ⟨attributed.1, ih ?_ attributed.2⟩
      rw [List.mem_cons, not_or]
      exact ⟨fun same => other (by simp [same]), unseen⟩

theorem Attributed.names {commands : List Command} {seen : List String}
    (attributed : Attributed seen commands)
    (all : ∀ command ∈ commands, command.examples ≠ []) :
    (∀ command ∈ commands, '`' ∉ command.name.toList ∧ command.name ∉ seen) ∧
      (commands.map (·.name)).Nodup := by
  induction commands generalizing seen with
  | nil => simp
  | cons command commands ih =>
    rw [List.forall_mem_cons] at all
    obtain ⟨here, distinct⟩ := ih attributed.2 all.2
    refine ⟨?_, ?_⟩
    · rw [List.forall_mem_cons]
      refine ⟨attributed.1 all.1, fun other member => ?_⟩
      have := here other member
      exact ⟨this.1, fun before => this.2 (List.mem_cons_of_mem _ before)⟩
    · rw [List.map_cons, List.nodup_cons]
      refine ⟨?_, distinct⟩
      intro member
      obtain ⟨other, inside, same⟩ := List.mem_map.1 member
      exact (here other inside).2 (same ▸ List.mem_cons_self)

private theorem length_exampleText_carry (settings : Settings) (old command : Command) :
    (exampleText settings (carry settings old command)).length =
      (exampleText settings command).length + (shownText settings old).length := by
  simp [exampleText, shownText, carry, addExamples, noteUsage]

/-- Between two states of a reading: what was shown has all been taken in, by commands that their
headings lead to. -/
structure Taken (settings : Settings) (shown : List Char) (found next : Recovered) : Prop where
  requirements : next.requirements = found.requirements
  total : next.registry.tally (exampleText settings) =
    found.registry.tally (exampleText settings) + shown.length
  attributed : (∀ group ∈ found.registry.groups, Attributed [] group.commands) →
    ∀ group ∈ next.registry.groups, Attributed [] group.commands

private theorem taken_of_carryOver {entry : String × Command} (plain : '`' ∉ entry.2.name.toList)
    {found next : Recovered} (done : carryOver settings found entry = .ok next) :
    Taken settings (shownText settings entry.2) found next := by
  by_cases known : (found.registry.find? entry.1 entry.2.name).isSome = true
  · obtain ⟨command, named⟩ := Option.isSome_iff_exists.1 known
    rw [carryOver, if_pos known] at done
    cases done
    refine ⟨rfl, Registry.tally_update named (length_exampleText_carry settings entry.2 command), ?_⟩
    intro attributed group member
    rcases mem_updateFirst member with before | ⟨old, before, rfl⟩
    · exact attributed group before
    · exact (attributed old before).updateFirst plain (carry_name settings entry.2)
        List.not_mem_nil
  · rw [carryOver, if_neg known] at done
    cases done

private theorem taken_of_foldlM {entries : List (String × Command)}
    (plain : ∀ entry ∈ entries, '`' ∉ entry.2.name.toList) {found final : Recovered}
    (done : entries.foldlM (carryOver settings) found = .ok final) :
    Taken settings (entries.flatMap fun entry => shownText settings entry.2) found final := by
  induction entries generalizing found with
  | nil =>
    cases done
    exact ⟨rfl, rfl, id⟩
  | cons entry entries ih =>
    rw [List.forall_mem_cons] at plain
    rw [List.foldlM_cons] at done
    cases first : carryOver settings found entry with
    | error failure =>
      rw [first] at done
      cases done
    | ok next =>
      rw [first] at done
      have here := taken_of_carryOver plain.1 first
      have later := ih plain.2 done
      refine ⟨later.requirements.trans here.requirements, ?_,
        fun attributed => later.attributed (here.attributed attributed)⟩
      rw [later.total, here.total, List.flatMap_cons, List.length_append, Nat.add_assoc]

private theorem notMem_headedName (name : String) : '`' ∉ (headedName name).toList := by
  rw [headedName, String.toList_ofList]
  intro member
  simpa using List.mem_takeWhile_imp member

private theorem plain_headedRegistry (registry : Registry) :
    ∀ entry ∈ (headedRegistry registry).entries, '`' ∉ entry.2.name.toList := by
  intro entry member
  obtain ⟨group, inRegistry, inside⟩ := List.mem_flatMap.1 member
  obtain ⟨command, inGroup, rfl⟩ := List.mem_map.1 inside
  obtain ⟨holder, -, rfl⟩ := List.mem_map.1 inRegistry
  obtain ⟨original, -, rfl⟩ := List.mem_map.1 inGroup
  exact notMem_headedName original.name

private theorem length_shown_headedRegistry (registry : Registry) :
    ((headedRegistry registry).entries.flatMap fun entry => shownText settings entry.2).length =
      registry.tally (shownText settings) := by
  simp only [Registry.entries, headedRegistry, headedGroup, Registry.tally, List.flatMap_assoc,
    List.flatMap_map]
  rfl

private theorem tally_of_bare {registry : Registry}
    (bare : ∀ group ∈ registry.groups, ∀ command ∈ group.commands, command.examples = []) :
    registry.tally (exampleText settings) = 0 := by
  rw [Registry.tally, List.length_eq_zero_iff, List.flatMap_eq_nil_iff]
  intro group inRegistry
  rw [List.flatMap_eq_nil_iff]
  intro command inGroup
  rw [exampleText, bare group inRegistry command inGroup, List.flatMap_nil]

theorem length_flatMap_le {α β : Type} {f g : α → List β} {items : List α}
    (below : ∀ item ∈ items, (f item).length ≤ (g item).length) :
    (items.flatMap f).length ≤ (items.flatMap g).length := by
  induction items with
  | nil => simp
  | cons item items ih =>
    rw [List.forall_mem_cons] at below
    simp only [List.flatMap_cons, List.length_append]
    exact Nat.add_le_add below.1 (ih below.2)

theorem length_le_of_flatMap_le {α β : Type} {f g : α → List β} {items : List α}
    (below : ∀ item ∈ items, (f item).length ≤ (g item).length)
    (total : (items.flatMap g).length ≤ (items.flatMap f).length) :
    ∀ item ∈ items, (g item).length ≤ (f item).length := by
  induction items with
  | nil => simp
  | cons item items ih =>
    rw [List.forall_mem_cons] at below
    have rest := length_flatMap_le below.2
    simp only [List.flatMap_cons, List.length_append] at total
    rw [List.forall_mem_cons]
    exact ⟨by omega, ih below.2 (by omega)⟩

theorem length_exampleText_le (command : Command) :
    (exampleText settings command).length ≤ (shownText settings command).length := by
  unfold exampleText shownText shownExamples
  split
  · rename_i bare
    simp [bare]
  · rfl

/-- If no more is shown than there is, no command is without examples. -/
theorem examples_ne_nil_of_tally (settings : Settings) {registry : Registry}
    (total : registry.tally (shownText settings) ≤ registry.tally (exampleText settings)) :
    ∀ group ∈ registry.groups, ∀ command ∈ group.commands, command.examples ≠ [] := by
  intro group inRegistry command inGroup bare
  have below (group : Group) : (group.commands.flatMap (exampleText settings)).length ≤
      (group.commands.flatMap (shownText settings)).length :=
    length_flatMap_le fun command _ => length_exampleText_le command
  have inside := length_le_of_flatMap_le (fun group _ => below group) total group inRegistry
  have here := length_le_of_flatMap_le (fun command _ => length_exampleText_le command) inside
    command inGroup
  simp [exampleText, shownText, shownExamples, bare, examplePart, openingFence,
    Settings.fence] at here

section

variable {registry grown : Registry} {lines : List (List Char)}

/-- If the document of a reading is the document that was read, every command got examples. -/
theorem addressable_of_same (fresh : registry.Fresh) (extended : registry.Extended settings grown)
    {again : Recovered}
    (done : (headedRegistry grown).entries.foldlM (carryOver settings)
      ⟨registry, requirementsOf lines, 0, 0⟩ = .ok again)
    (kept : registry.Extended settings again.registry)
    (same : render settings again.requirements again.registry =
      render settings (requirementsOf lines) grown) : registry.Addressable := by
  have taken := taken_of_foldlM (plain_headedRegistry grown) done
  -- The frames are the same, so the two documents show equally much for the examples. What the
  -- first one shows is what the commands now have, and no placeholder can have come on top.
  have bare := fun group inRegistry command inGroup =>
    (fresh.commands group inRegistry command inGroup).bare
  have lengths := congrArg (·.toList.length) same
  simp only [length_render, frame_of_extended kept, frame_of_extended extended,
    taken.requirements] at lengths
  have total := taken.total
  rw [length_shown_headedRegistry, tally_of_bare bare] at total
  have all := examples_ne_nil_of_tally settings (show again.registry.tally (shownText settings) ≤
    again.registry.tally (exampleText settings) by omega)
  rw [← Registry.addressable_congr kept.contents_eq]
  have attributed := taken.attributed fun group member =>
    attributed_of_bare group.commands [] (bare group member)
  constructor
  · intro group member name named
    obtain ⟨command, inGroup, rfl⟩ := List.mem_map.1 named
    exact (((attributed group member).names (all group member)).1 command inGroup).1
  · intro group member
    exact ((attributed group member).names (all group member)).2

/-- Every command gets back what the document shows for it. -/
theorem render_handedOver (distinct : grown.Distinct)
    (extended : registry.Extended settings grown)
    (kept : registry.Extended settings (handedOver settings grown.entries registry))
    (requirements : String) :
    render settings requirements (handedOver settings grown.entries registry) =
      render settings requirements grown := by
  let change (group : String) (command : Command) : Command :=
    (Registry.entryNamed? grown.entries group command.name).elim command
      (handedOn settings · command)
  have sections : (registry.mapCommands change).groups.map (groupSection settings) =
      grown.groups.map (groupSection settings) := by
    rw [Registry.mapCommands, List.map_map]
    apply map_eq_of_forall₂ extended
    intro first _ second inGrown related
    have commands : (first.commands.map (change first.name)).map
          (fun command => commandGap ++ commandPart settings command) =
        second.commands.map fun command => commandGap ++ commandPart settings command := by
      rw [List.map_map]
      apply map_eq_of_forall₂ related.commands
      intro old _ new inSecond same
      have found : change first.name old = handedOn settings new old := by
        simp only [change]
        rw [distinct.entryNamed?_entries, ← related.name, ← same.name,
          distinct.find?_of_mem inGrown inSecond]
        rfl
      rw [Function.comp, found,
        commandPart_handedOn settings same.name (aboutPart_of_extended same)]
    rw [Function.comp, groupSection, groupSection, commands, related.name]
  have contents := kept.contents_eq.trans extended.contents_eq.symm
  rw [render_eq, render_eq, preface_congr contents]
  exact congrArg (_ ++ concat ·) sections

/-- A second reading gives back the document exactly if every heading leads to its command. -/
theorem rereading_iff (valid : settings.validate = .ok settings)
    (presentable : Presentable settings) (fresh : registry.Fresh)
    (unobtrusive : Unobtrusive settings registry) (extended : registry.Extended settings grown)
    (prose : ∀ line ∈ lines, Prose line) :
    (∃ again, recover settings registry (render settings (requirementsOf lines) grown) =
        .ok again ∧
      render settings again.requirements again.registry =
        render settings (requirementsOf lines) grown) ↔ registry.Addressable := by
  obtain ⟨headable, readable⟩ := readable_of_extended fresh unobtrusive extended registry
  have steps := recover_render_eq_headed valid presentable headable readable lines prose
  constructor
  · rintro ⟨again, done, same⟩
    exact addressable_of_same fresh extended (steps.symm.trans done) (extended_of_recover done) same
  · intro addressable
    have single : registry.Distinct := ⟨fresh.distinct, addressable.distinct⟩
    have distinct : grown.Distinct := Registry.Extended.distinct extended single
    have known := Registry.Extended.isSome_find? extended single
    have plain : ∀ group ∈ grown.groups, ∀ command ∈ group.commands,
        '`' ∉ command.name.toList := by
      intro group member command inGroup
      exact (Registry.Extended.addressable extended addressable).plain group member _
        (List.mem_map_of_mem inGroup)
    have bare := fun group inRegistry command inGroup =>
      (fresh.commands group inRegistry command inGroup).bare
    rw [headedRegistry_of_plain plain, foldlM_carryOver_of_known settings _ single known,
      carryAll_eq_handedOver settings distinct.entries_nodup single bare] at steps
    exact ⟨_, steps, render_handedOver distinct extended (extended_of_recover steps) _⟩

end

end Document

end CommandReference
