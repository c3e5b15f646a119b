import CommandReference.Command.Registry
import Mathlib.Data.List.Nodup
import Mathlib.Tactic.Common

/-! Registries in which no name stands twice. A change of the command that a look-up
finds is then a change of all commands by one rule, and a series of such changes comes
to one change that looks up, for each command, what was meant for it. -/
namespace CommandReference

theorem updateFirst_eq_map {α : Type} (key : α → String) (wanted : String) (change : α → α)
    (items : List α) (distinct : (items.map key).Nodup) :
    updateFirst (key · == wanted) change items =
      items.map fun item => if key item = wanted then change item else item := by
  induction items with
  | nil => rfl
  | cons item items ih =>
    simp only [List.map_cons, List.nodup_cons] at distinct
    rw [updateFirst, List.map_cons]
    by_cases same : key item = wanted
    · have others : ∀ other ∈ items, key other ≠ wanted := by
        intro other member equal
        exact distinct.1 (List.mem_map.2 ⟨other, member, equal.trans same.symm⟩)
      have unchanged : items.map (fun item => if key item = wanted then change item else item) =
          items.map id :=
        List.map_congr_left fun other member => if_neg (others other member)
      simp [same, unchanged]
    · simp [same, ih distinct.2]

theorem map_updateFirst {α β : Type} (key : α → β) (p : α → Bool) (change : α → α)
    (keeps : ∀ item, key (change item) = key item) (items : List α) :
    (updateFirst p change items).map key = items.map key := by
  induction items with
  | nil => rfl
  | cons item items ih =>
    rw [updateFirst]
    split
    · simp [keeps]
    · simp [ih]

theorem updateFirst_updateFirst {α : Type} (p : α → Bool) (first second : α → α)
    (keeps : ∀ item, p (first item) = p item) (items : List α) :
    updateFirst p second (updateFirst p first items) = updateFirst p (second ∘ first) items := by
  induction items with
  | nil => rfl
  | cons item items ih =>
    by_cases here : p item = true
    · simp [updateFirst, here, keeps]
    · simp [updateFirst, here, ih]

theorem updateFirst_same {α : Type} (p : α → Bool) (change : α → α)
    (same : ∀ item, change item = item) (items : List α) : updateFirst p change items = items := by
  induction items with
  | nil => rfl
  | cons item items ih => rw [updateFirst, same, ih, ite_self]

namespace Registry

/-- Changes every command by a rule that may look at the name of its group. -/
def mapCommands (change : String → Command → Command) (registry : Registry) : Registry :=
  ⟨registry.groups.map fun group =>
    { group with commands := group.commands.map (change group.name) }⟩

/-- The commands in order, each with the name of its group. -/
def entries (registry : Registry) : List (String × Command) :=
  registry.groups.flatMap fun group => group.commands.map (group.name, ·)

/-- The names by which a look-up finds an entry. -/
def entryKey (entry : String × Command) : String × String := (entry.1, entry.2.name)

/-- The first of some entries that has these names. -/
def entryNamed? (entries : List (String × Command)) (group name : String) : Option Command :=
  (entries.find? (entryKey · == (group, name))).map (·.2)

/-- No two groups have the same name, and no two commands of a group. -/
@[mk_iff]
structure Distinct (registry : Registry) : Prop where
  groups : registry.groupNames.Nodup
  commands : ∀ group ∈ registry.groups, group.commandNames.Nodup

instance (registry : Registry) : Decidable registry.Distinct :=
  decidable_of_iff _ (distinct_iff registry).symm

def KeepsNames (change : String → Command → Command) : Prop :=
  ∀ group command, (change group command).name = command.name

variable {registry : Registry} {change : String → Command → Command}

theorem mapCommands_congr {other : String → Command → Command}
    (same : ∀ group ∈ registry.groups, ∀ command ∈ group.commands,
      change group.name command = other group.name command) :
    registry.mapCommands change = registry.mapCommands other := by
  apply congrArg Registry.mk
  apply List.map_congr_left
  intro group member
  rw [List.map_congr_left (same group member)]

theorem mapCommands_mapCommands (next : String → Command → Command) :
    (registry.mapCommands change).mapCommands next =
      registry.mapCommands fun group command => next group (change group command) := by
  simp [mapCommands, Function.comp_def]

private theorem mapCommands_id (same : ∀ group command, change group command = command) :
    registry.mapCommands change = registry := by
  have unchanged : change = fun _ command => command := funext₂ same
  simp [mapCommands, unchanged]

theorem update_eq_mapCommands (distinct : registry.Distinct) (group name : String)
    (change : Command → Command) :
    registry.update group name change = registry.mapCommands fun holder command =>
      if holder = group ∧ command.name = name then change command else command := by
  apply congrArg Registry.mk
  rw [updateFirst_eq_map Group.name _ _ _ distinct.groups]
  apply List.map_congr_left
  intro found member
  by_cases same : found.name = group
  · have here := updateFirst_eq_map Command.name name change _ (distinct.commands found member)
    simp [same, here]
  · simp [same]

theorem groupNames_mapCommands :
    (registry.mapCommands change).groupNames = registry.groupNames := by
  simp [groupNames, mapCommands, Function.comp_def]

theorem groupNames_update (registry : Registry) (group name : String)
    (change : Command → Command) :
    (registry.update group name change).groupNames = registry.groupNames := by
  apply map_updateFirst Group.name
  intro found
  rfl

theorem update_update (registry : Registry) (group name : String) (first second : Command → Command)
    (keeps : ∀ command, (first command).name = command.name) :
    (registry.update group name first).update group name second =
      registry.update group name (second ∘ first) := by
  apply congrArg Registry.mk
  rw [update, updateGroup, updateFirst_updateFirst]
  · have inner : ∀ commands : List Command,
        updateFirst (·.name == name) second (updateFirst (·.name == name) first commands) =
          updateFirst (·.name == name) (second ∘ first) commands := by
      intro commands
      apply updateFirst_updateFirst
      intro command
      rw [keeps]
    simp only [Function.comp_def, inner]
  · intro found
    rfl

theorem update_same (registry : Registry) (group name : String) (change : Command → Command)
    (same : ∀ command, change command = command) :
    registry.update group name change = registry := by
  apply congrArg Registry.mk
  apply updateFirst_same
  intro found
  rw [updateFirst_same _ _ same]

theorem isSome_group?_iff {name : String} :
    (registry.group? name).isSome = true ↔ name ∈ registry.groupNames := by
  simp [group?, groupNames]

theorem Distinct.mapCommands (distinct : registry.Distinct) (keeps : KeepsNames change) :
    (registry.mapCommands change).Distinct where
  groups := by
    rw [groupNames_mapCommands]
    exact distinct.groups
  commands := by
    intro group member
    obtain ⟨found, inside, rfl⟩ := List.mem_map.1 member
    have same : (found.commands.map (change found.name)).map (·.name) = found.commandNames := by
      simp [Group.commandNames, Function.comp_def, keeps found.name]
    rw [Group.commandNames, same]
    exact distinct.commands found inside

private theorem group?_mapCommands (name : String) :
    (registry.mapCommands change).group? name =
      (registry.group? name).map fun group =>
        { group with commands := group.commands.map (change group.name) } := List.find?_map

theorem isSome_find?_mapCommands (keeps : KeepsNames change) (group name : String) :
    ((registry.mapCommands change).find? group name).isSome =
      (registry.find? group name).isSome := by
  rw [find?, find?, group?_mapCommands]
  cases found : registry.group? group with
  | none => rfl
  | some holder =>
    have same : (fun command : Command => command.name == name) ∘ change holder.name =
        fun command => command.name == name :=
      funext fun command => congrArg (· == name) (keeps holder.name command)
    change ((holder.commands.map (change holder.name)).find? _).isSome =
      (holder.commands.find? _).isSome
    rw [List.find?_map, Option.isSome_map, same]

theorem commandCount_eq_length_entries : registry.commandCount = registry.entries.length := by
  simp [commandCount, entries, List.length_flatMap]

theorem Distinct.entries_nodup (distinct : registry.Distinct) :
    (registry.entries.map entryKey).Nodup := by
  rw [entries, List.map_flatMap, List.nodup_flatMap]
  constructor
  · intro group member
    have names := distinct.commands group member
    rw [List.map_map]
    apply List.Nodup.of_map Prod.snd
    simpa [Function.comp_def, entryKey, Group.commandNames] using names
  · have names : registry.groups.Pairwise (fun first second => first.name ≠ second.name) :=
      List.pairwise_map.1 distinct.groups
    apply names.imp
    intro first second different key left right
    simp only [List.map_map, List.mem_map, Function.comp_apply, entryKey] at left right
    obtain ⟨_, _, rfl⟩ := left
    obtain ⟨_, _, equal⟩ := right
    exact different (congrArg Prod.fst equal).symm

theorem find?_key_of_mem {α : Type} (key : α → String) {items : List α}
    (distinct : (items.map key).Nodup) {item : α} (member : item ∈ items) :
    items.find? (key · == key item) = some item := by
  induction items with
  | nil => cases member
  | cons first items ih =>
    simp only [List.map_cons, List.nodup_cons] at distinct
    rcases List.mem_cons.1 member with rfl | inside
    · exact List.find?_cons_of_pos (beq_self_eq_true _)
    · rw [List.find?_cons_of_neg, ih distinct.2 inside]
      intro same
      exact distinct.1 (beq_iff_eq.1 same ▸ List.mem_map_of_mem inside)

theorem Distinct.find?_of_mem (distinct : registry.Distinct) {group : Group}
    (inRegistry : group ∈ registry.groups) {command : Command}
    (inGroup : command ∈ group.commands) :
    registry.find? group.name command.name = some command := by
  have found : registry.group? group.name = some group :=
    find?_key_of_mem Group.name distinct.groups inRegistry
  rw [find?, found]
  exact find?_key_of_mem Command.name (distinct.commands group inRegistry) inGroup

private theorem entryNamed?_cons (item : String × Command) (items : List (String × Command))
    (group name : String) :
    entryNamed? (item :: items) group name =
      if entryKey item = (group, name) then some item.2 else entryNamed? items group name := by
  rw [entryNamed?]
  by_cases same : entryKey item = (group, name)
  · rw [List.find?_cons_of_pos (by simpa using same), if_pos same]
    rfl
  · rw [List.find?_cons_of_neg (by simpa using same), if_neg same]
    rfl

theorem entryNamed?_eq_none_iff {items : List (String × Command)} {group name : String} :
    entryNamed? items group name = none ↔ (group, name) ∉ items.map entryKey := by
  simp [entryNamed?, List.find?_eq_none]

private theorem entryNamed?_append (first second : List (String × Command)) (group name : String) :
    entryNamed? (first ++ second) group name =
      (entryNamed? first group name).or (entryNamed? second group name) := by
  rw [entryNamed?, List.find?_append, Option.map_or, entryNamed?, entryNamed?]

private theorem entryNamed?_map_mk (holder : String) (commands : List Command)
    (group name : String) :
    entryNamed? (commands.map (holder, ·)) group name =
      if holder = group then commands.find? (·.name == name) else none := by
  by_cases same : holder = group
  · have keys : ((entryKey · == (group, name)) ∘ (holder, ·)) = fun command : Command =>
        command.name == name := by
      funext command
      rw [Bool.eq_iff_iff]
      simp [entryKey, same]
    rw [entryNamed?, List.find?_map, keys, if_pos same, Option.map_map]
    exact congrFun Option.map_id _
  · simp [entryNamed?_eq_none_iff, entryKey, same]

/-- In a registry without repeated names, a look-up finds the entry of these names. -/
theorem Distinct.entryNamed?_entries (distinct : registry.Distinct) (group name : String) :
    entryNamed? registry.entries group name = registry.find? group name := by
  obtain ⟨groups⟩ := registry
  have names : (groups.map (·.name)).Nodup := distinct.groups
  rw [entries, find?, group?]
  dsimp only
  clear distinct
  induction groups with
  | nil => rfl
  | cons first groups ih =>
    simp only [List.map_cons, List.nodup_cons] at names
    rw [List.flatMap_cons, entryNamed?_append, entryNamed?_map_mk, ih names.2]
    by_cases same : first.name = group
    · have absent : groups.find? (·.name == group) = none := by
        rw [List.find?_eq_none]
        intro other member equal
        exact names.1 (List.mem_map.2 ⟨other, member, (beq_iff_eq.1 equal).trans same.symm⟩)
      rw [if_pos same, absent, List.find?_cons_of_pos (by simpa using same)]
      exact Option.or_none
    · rw [if_neg same, List.find?_cons_of_neg (by simpa using same)]
      rfl

/-- Changes of commands that are looked up one after the other, each by the names of its
entry, come to one change. Its premise is that no two entries have the same names. -/
theorem foldl_update_eq_mapCommands (carry : Command → Command → Command)
    (keeps : ∀ old command, (carry old command).name = command.name)
    (items : List (String × Command)) (single : (items.map entryKey).Nodup)
    (distinct : registry.Distinct) :
    items.foldl (fun current item => current.update item.1 item.2.name (carry item.2)) registry =
      registry.mapCommands fun group command =>
        (entryNamed? items group command.name).elim command (carry · command) := by
  induction items generalizing registry with
  | nil => exact (mapCommands_id fun _ _ => rfl).symm
  | cons item items ih =>
    simp only [List.map_cons, List.nodup_cons] at single
    have kept : KeepsNames fun holder command =>
        if holder = item.1 ∧ command.name = item.2.name then carry item.2 command else command := by
      intro group command
      dsimp only
      split
      · exact keeps _ _
      · rfl
    rw [List.foldl_cons, update_eq_mapCommands distinct, ih single.2 (distinct.mapCommands kept),
      mapCommands_mapCommands]
    apply mapCommands_congr
    intro group _ command _
    rw [entryNamed?_cons]
    by_cases here : group.name = item.1 ∧ command.name = item.2.name
    · have same : entryKey item = (group.name, command.name) := by
        rw [entryKey, here.1, here.2]
      have absent : entryNamed? items group.name command.name = none :=
        entryNamed?_eq_none_iff.2 (same ▸ single.1)
      rw [if_pos here, keeps, absent, if_pos same]
      rfl
    · have other : entryKey item ≠ (group.name, command.name) := by
        intro equal
        rw [entryKey, Prod.mk.injEq] at equal
        exact here ⟨equal.1.symm, equal.2.symm⟩
      rw [if_neg here, if_neg other]

end Registry

end CommandReference
