import CommandReference.Proofs.Command.Log
import CommandReference.Proofs.Command.Places

/-! The registry as a multimap from group names to commands that keeps the order of insertion.
Whatever is said to an empty registry, what can be asked of it is told by the list of what was said:
its groups are the names in the order of their first mention, and a group holds what was added to
it, in that order. -/
namespace CommandReference

/-- What a mention does to a registry: it adds the group if it is missing, and the command if there
is one. -/
def Mention.apply (mention : Mention) (registry : Registry) : Registry :=
  match mention.command with
  | none => registry.ensureGroup mention.group
  | some command => registry.push mention.group command

namespace Registry

/-- The registry after some mentions. -/
def hear (log : List Mention) (registry : Registry) : Registry :=
  log.foldl (fun current mention => mention.apply current) registry

private theorem hear_append (before after : List Mention) (registry : Registry) :
    registry.hear (before ++ after) = (registry.hear before).hear after :=
  List.foldl_append

section Step
variable (registry : Registry) (mention : Mention)

private theorem group?_apply_of_ne {other : String} (apart : other ≠ mention.group) :
    (mention.apply registry).group? other = registry.group? other := by
  have added : (registry.ensureGroup mention.group).group? other = registry.group? other := by
    rw [group?_ensureGroup, if_neg apart, Option.or_none]
  rw [Mention.apply]
  cases mention.command with
  | none => exact added
  | some command =>
    have updated := (registry.ensureGroup mention.group).group?_updateGroup mention.group
      (·.add command) (fun _ => rfl) other
    rw [if_neg apart] at updated
    exact updated.trans added

theorem commandCount_ensureGroup (name : String) :
    (registry.ensureGroup name).commandCount = registry.commandCount := by
  rw [ensureGroup]
  split
  · rfl
  · simp [commandCount]

/-- Adding a command always finds its group, so it is counted. -/
theorem commandCount_push (group : String) (command : Command) :
    (registry.push group command).commandCount = registry.commandCount + 1 := by
  have present : group ∈ (registry.ensureGroup group).groupNames := by
    rw [groupNames_ensureGroup]
    split
    · assumption
    · simp
  obtain ⟨held, found⟩ := Option.isSome_iff_exists.1 (isSome_group?_iff.2 present)
  rw [← commandCount_ensureGroup registry group]
  exact length_flatMap_updateFirst found (by simp [Group.add])

private theorem commandCount_apply :
    (mention.apply registry).commandCount = registry.commandCount + mention.command.toList.length := by
  rw [Mention.apply]
  cases mention.command with
  | none => exact commandCount_ensureGroup registry mention.group
  | some command => exact commandCount_push registry mention.group command

end Step

private theorem apply_ofLog (log : List Mention) (mention : Mention) :
    mention.apply (ofLog log) = ofLog (log ++ [mention]) := by
  obtain ⟨group, command⟩ := mention
  cases command with
  | none => exact ensureGroup_ofLog log group
  | some command => exact push_ofLog log group command

private theorem hear_ofLog (log later : List Mention) :
    (ofLog log).hear later = ofLog (log ++ later) := by
  induction later generalizing log with
  | nil => rw [List.append_nil]; rfl
  | cons mention later ih =>
    have step : (ofLog log).hear (mention :: later) = (mention.apply (ofLog log)).hear later := rfl
    rw [step, apply_ofLog, ih, List.append_assoc]
    rfl

theorem hear_empty (log : List Mention) : empty.hear log = ofLog log := hear_ofLog [] log

private theorem commandCount_hear (log : List Mention) (registry : Registry) :
    (registry.hear log).commandCount = registry.commandCount + log.countP (·.command.isSome) := by
  induction log generalizing registry with
  | nil => rfl
  | cons mention log ih =>
    have step : registry.hear (mention :: log) = (mention.apply registry).hear log := rfl
    rw [step, ih, commandCount_apply, List.countP_cons]
    cases mention.command with
    | none => rfl
    | some command =>
      simp only [Option.toList_some, List.length_singleton, Option.isSome_some, if_true]
      omega

theorem groupNames_ofLog (log : List Mention) : (ofLog log).groupNames = (namesOf log).eraseDups := by
  simp [groupNames, ofLog, compose, Function.comp_def]

private theorem entryNamed?_eq_find?_commandsIn (entries : List (String × Command))
    (group name : String) :
    entryNamed? entries group name = (commandsIn group entries).find? (·.name == name) := by
  rw [entryNamed?, commandsIn, List.find?_map, List.find?_filter]
  congr 2
  funext entry
  rw [Bool.eq_iff_iff]
  simp [entryKey]

private theorem find?_ofLog (log : List Mention) (group name : String) :
    (ofLog log).find? group name = entryNamed? (placed log) group name := by
  rw [find?, ofLog, group?_compose, entryNamed?_eq_find?_commandsIn]
  by_cases seen : group ∈ namesOf log
  · rw [if_pos seen]
    rfl
  · rw [if_neg seen, commandsIn_placed_of_notMem seen]
    rfl

private theorem isEmpty_ofLog_iff (log : List Mention) : (ofLog log).isEmpty = true ↔ log = [] := by
  have names : (ofLog log).isEmpty = true ↔ (ofLog log).groupNames = [] := by
    simp [isEmpty, groupNames]
  rw [names, groupNames_ofLog]
  cases log with
  | nil => simp [namesOf]
  | cons mention log => simp [namesOf, List.eraseDups_cons]

/-- A registry is an insertion-ordered multimap. After any mentions its groups are the names
mentioned, in the order of their first mention; a group holds what was added under its name, in
that order; a look-up finds the first command that was added under both names; every added command
counts; only without any mention is the registry empty. And no mention touches a group of another
name. -/
theorem hear_multimap (log : List Mention) :
    (empty.hear log).groupNames = (namesOf log).eraseDups ∧
    (∀ name, (empty.hear log).group? name =
      if name ∈ namesOf log then some ⟨name, commandsIn name (placed log)⟩ else none) ∧
    (∀ group name, (empty.hear log).find? group name = entryNamed? (placed log) group name) ∧
    (empty.hear log).commandCount = log.countP (·.command.isSome) ∧
    ((empty.hear log).isEmpty = true ↔ log = []) ∧
    ∀ mention other, other ≠ mention.group →
      (empty.hear (log ++ [mention])).group? other = (empty.hear log).group? other := by
  refine ⟨?_, ?_, ?_, ?_, ?_, ?_⟩
  · rw [hear_empty, groupNames_ofLog]
  · rw [hear_empty]
    exact group?_compose _ _
  · rw [hear_empty]
    exact find?_ofLog log
  · exact (commandCount_hear log empty).trans (Nat.zero_add _)
  · rw [hear_empty, isEmpty_ofLog_iff]
  · intro mention other apart
    rw [hear_append]
    exact group?_apply_of_ne (empty.hear log) mention apart

/-- Groups that are begun, revisited and added to in turn, with a name that comes twice. -/
def interleaved : List Mention :=
  [.marker "B", .entry "A" (.ofName "x"), .entry "B" (.ofName "y"), .marker "A",
    .entry "A" ⟨"x", none, "again", [], [], []⟩]

theorem hear_multimap_interleaved :
    (empty.hear interleaved).groupNames = ["B", "A"] ∧
      (empty.hear interleaved).find? "A" "x" = some (.ofName "x") ∧
      (empty.hear interleaved).commandCount = 3 ∧
      (empty.hear (interleaved ++ [.entry "A" (.ofName "z")])).group? "B" =
        some ⟨"B", [.ofName "y"]⟩ := by
  obtain ⟨names, groups, finds, count, -, others⟩ := hear_multimap interleaved
  refine ⟨?_, ?_, ?_, ?_⟩
  · rw [names]
    decide
  · rw [finds]
    decide
  · rw [count]
    decide
  · rw [others (.entry "A" (.ofName "z")) "B" (by decide), groups]
    decide

end Registry

end CommandReference
