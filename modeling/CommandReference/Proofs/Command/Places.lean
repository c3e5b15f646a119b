import CommandReference.Proofs.Command.Registry

/-! A registry as a map from places to commands. The place of a command is the name of its
group and its position there; groups that are added, commands that are appended and changes
at one place leave all other places as they are. -/
namespace CommandReference.Registry

variable (registry : Registry)

/-- The commands of a group, none where there is no such group. -/
def commandsOf (name : String) : List Command :=
  ((registry.group? name).map (·.commands)).getD []

theorem command?_eq_getElem? (ref : CommandRef) :
    registry.command? ref = (registry.commandsOf ref.group)[ref.index]? := by
  unfold command? commandsOf
  cases registry.group? ref.group with
  | none => simp
  | some group => simp

theorem nextRef_eq (group : String) :
    registry.nextRef group = ⟨group, (registry.commandsOf group).length⟩ := by
  unfold nextRef commandsOf
  cases registry.group? group with
  | none => simp
  | some found => simp

theorem command?_nextRef (group : String) : registry.command? (registry.nextRef group) = none := by
  simp [command?_eq_getElem?, nextRef_eq]

theorem group?_ensureGroup (name other : String) :
    (registry.ensureGroup name).group? other =
      (registry.group? other).or (if other = name then some ⟨name, []⟩ else none) := by
  unfold ensureGroup
  split
  · rename_i seen
    by_cases same : other = name
    · subst same
      obtain ⟨group, found⟩ := Option.isSome_iff_exists.1 seen
      simp [found]
    · simp [same]
  · have added : [(⟨name, []⟩ : Group)].find? (·.name == other) =
        if other = name then some ⟨name, []⟩ else none := by
      by_cases same : other = name
      · simp [same]
      · simp [same, Ne.symm same]
    rw [group?, List.find?_append, added]
    rfl

theorem commandsOf_ensureGroup (name other : String) :
    (registry.ensureGroup name).commandsOf other = registry.commandsOf other := by
  unfold commandsOf
  rw [group?_ensureGroup]
  cases registry.group? other with
  | none => by_cases same : other = name <;> simp [same]
  | some group => simp

theorem groupNames_ensureGroup (name : String) :
    (registry.ensureGroup name).groupNames =
      if name ∈ registry.groupNames then registry.groupNames else registry.groupNames ++ [name] := by
  unfold ensureGroup
  by_cases seen : name ∈ registry.groupNames
  · rw [if_pos (isSome_group?_iff.2 seen), if_pos seen]
  · rw [if_neg (mt isSome_group?_iff.1 seen), if_neg seen]
    simp [groupNames]

theorem nodup_ensureGroup (distinct : registry.groupNames.Nodup) (name : String) :
    (registry.ensureGroup name).groupNames.Nodup := by
  rw [groupNames_ensureGroup]
  split
  · exact distinct
  · rename_i absent
    exact List.nodup_append_comm.1 (List.nodup_cons.2 ⟨absent, distinct⟩)

theorem group?_updateGroup (name : String) (change : Group → Group)
    (keeps : ∀ group, (change group).name = group.name) (other : String) :
    (registry.updateGroup name change).group? other =
      if other = name then (registry.group? other).map change else registry.group? other := by
  obtain ⟨groups⟩ := registry
  unfold updateGroup group?
  dsimp only
  induction groups with
  | nil => simp [updateFirst]
  | cons group groups ih =>
    by_cases here : group.name = name
    · by_cases same : other = name
      · simp [updateFirst, here, same, keeps]
      · simp [updateFirst, here, same, keeps, Ne.symm same]
    · by_cases found : group.name = other
      · have apart : other ≠ name := found ▸ here
        simp [updateFirst, found, apart]
      · simpa [updateFirst, here, found] using ih

theorem groupNames_updateAt (ref : CommandRef) (change : Command → Command) :
    (registry.updateAt ref change).groupNames = registry.groupNames := by
  apply map_updateFirst Group.name
  intro group
  rfl

theorem commandsOf_updateAt (ref : CommandRef) (change : Command → Command) (other : String) :
    (registry.updateAt ref change).commandsOf other =
      if other = ref.group then (registry.commandsOf other).modify ref.index change
      else registry.commandsOf other := by
  have found := registry.group?_updateGroup ref.group
    (fun group => { group with commands := group.commands.modify ref.index change })
    (fun _ => rfl) other
  unfold commandsOf updateAt
  rw [found]
  by_cases same : other = ref.group
  · cases registry.group? other with
    | none => simp
    | some group => simp [same]
  · simp [same]

theorem groupNames_push (group : String) (command : Command) :
    (registry.push group command).groupNames = (registry.ensureGroup group).groupNames := by
  apply map_updateFirst Group.name
  intro found
  rfl

theorem commandsOf_push (group : String) (command : Command) (other : String) :
    (registry.push group command).commandsOf other =
      registry.commandsOf other ++ (if other = group then [command] else []) := by
  have found := (registry.ensureGroup group).group?_updateGroup group (·.add command)
    (fun _ => rfl) other
  unfold push commandsOf
  rw [found, group?_ensureGroup]
  by_cases same : other = group
  · cases registry.group? other with
    | none => simp [same, Group.add]
    | some found => simp [same, Group.add]
  · simp [same]

theorem command?_ensureGroup (name : String) (ref : CommandRef) :
    (registry.ensureGroup name).command? ref = registry.command? ref := by
  rw [command?_eq_getElem?, commandsOf_ensureGroup, command?_eq_getElem?]

theorem command?_updateAt (ref other : CommandRef) (change : Command → Command) :
    (registry.updateAt ref change).command? other =
      if other = ref then (registry.command? other).map change else registry.command? other := by
  rw [command?_eq_getElem?, commandsOf_updateAt, command?_eq_getElem?]
  obtain ⟨group, index⟩ := ref
  obtain ⟨otherGroup, otherIndex⟩ := other
  by_cases same : otherGroup = group
  · by_cases here : otherIndex = index
    · simp [same, here]
    · simp [same, here, Ne.symm here]
  · simp [same]

theorem command?_push_of_ne (group : String) (command : Command) {ref : CommandRef}
    (apart : ref ≠ registry.nextRef group) :
    (registry.push group command).command? ref = registry.command? ref := by
  rw [command?_eq_getElem?, commandsOf_push, command?_eq_getElem?]
  by_cases same : ref.group = group
  · have index : ref.index ≠ (registry.commandsOf ref.group).length := by
      intro last
      apply apart
      rw [nextRef_eq, ← same, ← last]
    rw [if_pos same]
    rcases Nat.lt_or_gt_of_ne index with inside | outside
    · rw [List.getElem?_append_left inside]
    · rw [List.getElem?_eq_none (by simp; omega), List.getElem?_eq_none (by omega)]
  · simp [same]

theorem find?_eq_commandsOf (group name : String) :
    registry.find? group name = (registry.commandsOf group).find? (·.name == name) := by
  unfold find? commandsOf
  cases registry.group? group with
  | none => simp
  | some found => simp [Group.find?]

theorem commandsOf_update (group name : String) (change : Command → Command) (other : String) :
    (registry.update group name change).commandsOf other =
      if other = group then updateFirst (·.name == name) change (registry.commandsOf other)
      else registry.commandsOf other := by
  have found := registry.group?_updateGroup group
    (fun found => { found with commands := updateFirst (·.name == name) change found.commands })
    (fun _ => rfl) other
  unfold commandsOf update
  rw [found]
  by_cases same : other = group
  · cases registry.group? other with
    | none => simp [updateFirst]
    | some found => simp [same]
  · simp [same]

private theorem find?_updateFirst {α : Type} {p : α → Bool} {change : α → α}
    (keeps : ∀ item, p (change item) = p item) (items : List α) :
    (updateFirst p change items).find? p = (items.find? p).map change := by
  induction items with
  | nil => rfl
  | cons item items ih =>
    by_cases here : p item = true
    · simp [updateFirst, here, keeps]
    · simp [updateFirst, here, ih]

theorem exists_updateFirst {α : Type} {p : α → Bool} {items : List α} {item : α}
    (found : items.find? p = some item) (change : α → α) :
    ∃ before after, items = before ++ item :: after ∧
      updateFirst p change items = before ++ change item :: after := by
  induction items with
  | nil => cases found
  | cons first items ih =>
    by_cases here : p first = true
    · rw [List.find?_cons_of_pos here] at found
      cases found
      exact ⟨[], items, rfl, by simp [updateFirst, here]⟩
    · rw [List.find?_cons_of_neg here] at found
      obtain ⟨before, after, shape, changed⟩ := ih found
      exact ⟨first :: before, after, by simp [shape], by simp [updateFirst, here, changed]⟩

theorem length_flatMap_updateFirst {α β : Type} {f : α → List β} {p : α → Bool}
    {change : α → α} {items : List α} {item : α} (found : items.find? p = some item) {count : Nat}
    (more : (f (change item)).length = (f item).length + count) :
    ((updateFirst p change items).flatMap f).length = (items.flatMap f).length + count := by
  obtain ⟨before, after, shape, changed⟩ := exists_updateFirst found change
  rw [changed, shape]
  simp only [List.flatMap_append, List.flatMap_cons, List.length_append, more]
  omega

/-- One command of a group stands in the place of another, and all else is the same. -/
def Replaced (group : String) (old new : Command) (first second : Registry) : Prop :=
  ∃ before earlier later after,
    first.groups = before ++ ⟨group, earlier ++ old :: later⟩ :: after ∧
    second.groups = before ++ ⟨group, earlier ++ new :: later⟩ :: after

theorem replaced_update {group name : String} {command : Command}
    (found : registry.find? group name = some command) (change : Command → Command) :
    Replaced group command (change command) registry (registry.update group name change) := by
  unfold find? at found
  obtain ⟨holder, inRegistry, inGroup⟩ := Option.bind_eq_some_iff.1 found
  have named : holder.name = group := by simpa using List.find?_some inRegistry
  obtain ⟨before, after, groups, updated⟩ := exists_updateFirst inRegistry fun found =>
    { found with commands := updateFirst (·.name == name) change found.commands }
  obtain ⟨earlier, later, commands, replaced⟩ := exists_updateFirst inGroup change
  subst named
  refine ⟨before, earlier, later, after, ?_, ?_⟩
  · rw [groups, ← commands]
  · rw [← replaced]
    exact updated

variable {change : Command → Command} (keeps : ∀ command, (change command).name = command.name)
include keeps

/-- The command that a look-up finds is the one that is changed. -/
theorem find?_update (group name : String) :
    (registry.update group name change).find? group name =
      (registry.find? group name).map change := by
  rw [find?_eq_commandsOf, commandsOf_update, if_pos rfl, find?_eq_commandsOf]
  apply find?_updateFirst
  intro command
  rw [keeps]

theorem isSome_find?_update (holder command group name : String) :
    ((registry.update holder command change).find? group name).isSome =
      (registry.find? group name).isSome := by
  have names : ((registry.update holder command change).commandsOf group).map (·.name) =
      (registry.commandsOf group).map (·.name) := by
    rw [commandsOf_update]
    split
    · exact map_updateFirst _ _ _ keeps _
    · rfl
  rw [find?_eq_commandsOf, find?_eq_commandsOf, Bool.eq_iff_iff, List.find?_isSome,
    List.find?_isSome]
  have listed (commands : List Command) :
      (∃ found ∈ commands, (found.name == name) = true) ↔ name ∈ commands.map (·.name) := by
    simp
  rw [listed, listed, names]

end CommandReference.Registry
