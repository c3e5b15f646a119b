import CommandReference.Proofs.Command.Registry
import Mathlib.Data.List.Induction

/-! Registries as the outcome of what was said about their groups in turn. A mention begins a
group, unless there is one of that name, and may add a command to it. -/
namespace CommandReference

structure Mention where
  group : String
  command : Option Command
  deriving DecidableEq

namespace Mention

def marker (group : String) : Mention := ⟨group, none⟩

def entry (group : String) (command : Command) : Mention := ⟨group, some command⟩

end Mention

namespace Registry

/-- The commands of one group among commands that are placed in groups. -/
def commandsIn (group : String) (placed : List (String × Command)) : List Command :=
  (placed.filter (·.1 == group)).map (·.2)

/-- The groups in the order in which they are first named, each with its commands in order. -/
def compose (names : List String) (placed : List (String × Command)) : Registry :=
  ⟨names.eraseDups.map fun name => ⟨name, commandsIn name placed⟩⟩

def placed (log : List Mention) : List (String × Command) :=
  log.filterMap fun mention => mention.command.map (mention.group, ·)

def namesOf (log : List Mention) : List String := log.map (·.group)

def ofLog (log : List Mention) : Registry := compose (namesOf log) (placed log)

theorem namesOf_append (before after : List Mention) :
    namesOf (before ++ after) = namesOf before ++ namesOf after :=
  List.map_append

theorem namesOf_cons (mention : Mention) (later : List Mention) :
    namesOf (mention :: later) = mention.group :: namesOf later := rfl

theorem placed_append (before after : List Mention) :
    placed (before ++ after) = placed before ++ placed after :=
  List.filterMap_append

theorem placed_entry (group : String) (command : Command) (later : List Mention) :
    placed (.entry group command :: later) = (group, command) :: placed later := rfl

theorem commandsIn_placed_of_notMem {group : String} {log : List Mention}
    (absent : group ∉ namesOf log) : commandsIn group (placed log) = [] := by
  rw [commandsIn, List.map_eq_nil_iff, List.filter_eq_nil_iff]
  intro entry member same
  obtain ⟨mention, mentioned, found⟩ := List.mem_filterMap.1 member
  obtain ⟨command, -, rfl⟩ := Option.map_eq_some_iff.1 found
  exact absent (List.mem_map.2 ⟨mention, mentioned, by simpa using same⟩)

/-- A name that has been seen changes nothing, another one stands at the end. -/
theorem eraseDups_concat (names : List String) (name : String) :
    (names ++ [name]).eraseDups =
      if name ∈ names then names.eraseDups else names.eraseDups ++ [name] := by
  rw [List.eraseDups_append, List.removeAll]
  by_cases seen : name ∈ names
  · simp [seen]
  · simp [seen, List.eraseDups_cons]

theorem nodup_eraseDups (names : List String) : names.eraseDups.Nodup := by
  induction names using List.reverseRecOn with
  | nil => exact List.nodup_nil
  | append_singleton names name ih =>
    rw [eraseDups_concat]
    split
    · exact ih
    · next absent =>
      rw [← List.mem_eraseDups] at absent
      exact List.nodup_append_comm.1 (List.nodup_cons.2 ⟨absent, ih⟩)

theorem group?_compose (names : List String) (entries : List (String × Command)) (name : String) :
    (compose names entries).group? name =
      if name ∈ names then some ⟨name, commandsIn name entries⟩ else none := by
  have search : (compose names entries).group? name =
      (names.eraseDups.find? (· == name)).map fun found => ⟨found, commandsIn found entries⟩ :=
    List.find?_map
  rw [search]
  cases found : names.eraseDups.find? (· == name) with
  | none =>
    rw [List.find?_eq_none] at found
    have absent : name ∉ names := fun member =>
      found name (List.mem_eraseDups.2 member) (beq_self_eq_true name)
    rw [if_neg absent]
    rfl
  | some other =>
    have same : other = name := by simpa using List.find?_some found
    subst same
    rw [if_pos (List.mem_eraseDups.1 (List.mem_of_find?_eq_some found))]
    rfl

theorem updateGroup_compose (names : List String) (entries : List (String × Command))
    (name : String) (change : Group → Group) :
    (compose names entries).updateGroup name change =
      ⟨names.eraseDups.map fun other =>
        if other = name then change ⟨other, commandsIn other entries⟩
        else ⟨other, commandsIn other entries⟩⟩ := by
  have distinct : ((compose names entries).groups.map Group.name).Nodup := by
    simpa [compose, Function.comp_def] using nodup_eraseDups names
  rw [updateGroup, updateFirst_eq_map Group.name name change _ distinct]
  simp [compose, Function.comp_def]

theorem placed_marker (log : List Mention) (name : String) :
    placed (log ++ [.marker name]) = placed log := by
  rw [placed_append]
  exact List.append_nil _

theorem commandsIn_entry (log later : List Mention) (group : String) (command : Command) :
    commandsIn group (placed (log ++ .entry group command :: later)) =
      commandsIn group (placed log) ++ command :: commandsIn group (placed later) := by
  simp [placed_append, placed_entry, commandsIn]

theorem commandsIn_entry_of_ne (log later : List Mention) {group other : String}
    (apart : other ≠ group) (command : Command) :
    commandsIn other (placed (log ++ .entry group command :: later)) =
      commandsIn other (placed log) ++ commandsIn other (placed later) := by
  simp [placed_append, placed_entry, commandsIn, Ne.symm apart]

theorem ensureGroup_ofLog (log : List Mention) (name : String) :
    (ofLog log).ensureGroup name = ofLog (log ++ [.marker name]) := by
  have names : namesOf (log ++ [.marker name]) = namesOf log ++ [name] := namesOf_append _ _
  rw [ensureGroup, ofLog, group?_compose, ofLog, placed_marker, names, compose, compose,
    eraseDups_concat]
  by_cases seen : name ∈ namesOf log
  · rw [if_pos seen, if_pos seen]
    rfl
  · have empty := commandsIn_placed_of_notMem seen
    rw [if_neg seen, if_neg seen, List.map_append]
    simp [empty]

theorem push_ofLog (log : List Mention) (name : String) (command : Command) :
    (ofLog log).push name command = ofLog (log ++ [.entry name command]) := by
  have names : namesOf (log ++ [.marker name]) = namesOf (log ++ [.entry name command]) := by
    rw [namesOf_append, namesOf_append]
    rfl
  rw [push, ensureGroup_ofLog, ofLog, updateGroup_compose, ofLog, compose, placed_marker, names]
  apply congrArg Registry.mk
  apply List.map_congr_left
  intro other _
  by_cases same : other = name
  · subst same
    rw [if_pos rfl, commandsIn_entry]
    rfl
  · rw [if_neg same, commandsIn_entry_of_ne _ _ same]
    exact congrArg (Group.mk other) (List.append_nil _).symm

/-- The place of a command that is mentioned behind a log. -/
def refAfter (log : List Mention) (group : String) : CommandRef :=
  ⟨group, (commandsIn group (placed log)).length⟩

theorem nextRef_ofLog (log : List Mention) (group : String) :
    (ofLog log).nextRef group = refAfter log group := by
  rw [nextRef, ofLog, group?_compose, refAfter]
  by_cases seen : group ∈ namesOf log
  · rw [if_pos seen]
    rfl
  · rw [if_neg seen, commandsIn_placed_of_notMem seen]
    rfl

theorem command?_ofLog (log later : List Mention) (group : String) (command : Command) :
    (ofLog (log ++ .entry group command :: later)).command? (refAfter log group) =
      some command := by
  have seen : group ∈ namesOf (log ++ .entry group command :: later) := by
    simp [namesOf, Mention.entry]
  rw [command?, ofLog, group?_compose, refAfter, if_pos seen, Option.bind_some, commandsIn_entry]
  simp

/-- A change at the place of a mentioned command is a change of the mention. -/
theorem updateAt_ofLog (log later : List Mention) (group : String) (command : Command)
    (change : Command → Command) :
    (ofLog (log ++ .entry group command :: later)).updateAt (refAfter log group) change =
      ofLog (log ++ .entry group (change command) :: later) := by
  have names : namesOf (log ++ .entry group command :: later) =
      namesOf (log ++ .entry group (change command) :: later) := by
    rw [namesOf_append, namesOf_append]
    rfl
  rw [updateAt, ofLog, updateGroup_compose, ofLog, compose, names]
  apply congrArg Registry.mk
  apply List.map_congr_left
  intro other _
  rw [refAfter]
  by_cases same : other = group
  · subst same
    rw [if_pos rfl, commandsIn_entry, commandsIn_entry, List.modify_eq_take_drop,
      List.take_left, List.drop_left, List.modifyHead_cons]
  · rw [if_neg same, commandsIn_entry_of_ne _ _ same, commandsIn_entry_of_ne _ _ same]

end Registry

end CommandReference
