import CommandReference.Proofs.Source.Blocks
import CommandReference.Proofs.Source.Finality
import CommandReference.Proofs.Source.Names

/-! Names for the headings of a document. The groups of a registry that a source declares stand in
the order in which the source first names or uses them. Each is found again by its heading; only the
name of the initial group is not the source's own, and that group is there only if it is used before
any group is named, or named itself. -/
namespace CommandReference
open Text

theorem groupsNamed_marker {line name : List Char} (marks : Line.group? line = some name)
    (group : String) (before : List (List Char)) :
    groupsNamed group before [line] = [String.ofList name] := by
  simp [groupsNamed, marks]

theorem groupsNamed_start {line name : List Char} (starts : Line.command? line = some name)
    (group : String) (before : List (List Char)) :
    groupsNamed group before [line] = [groupAfter group before] := by
  simp [groupsNamed, starts, Line.group?_of_command? starts]

theorem groupsNamed_inner {line : List Char} (inner : Line.Inner line) (group : String)
    (before : List (List Char)) : groupsNamed group before [line] = [] := by
  simp [groupsNamed, inner.noMarker, inner.noStart]

/-- Some command starts before any group is named. -/
def StartsUngrouped (given : List (List Char)) : Prop :=
  ∃ before start after, given = before ++ start :: after ∧
    (∀ line ∈ before, Line.Inner line) ∧ (Line.command? start).isSome = true

theorem StartsUngrouped.cons {line : List Char} (inner : Line.Inner line)
    {given : List (List Char)} (ungrouped : StartsUngrouped given) :
    StartsUngrouped (line :: given) := by
  obtain ⟨before, start, after, rfl, quiet, starts⟩ := ungrouped
  exact ⟨line :: before, start, after, rfl, List.forall_mem_cons.2 ⟨inner, quiet⟩, starts⟩

theorem groupsNamed_of_startsUngrouped {given : List (List Char)}
    (ungrouped : StartsUngrouped given) (group : String) :
    ∃ later, groupsNamed group [] given = group :: later := by
  obtain ⟨before, start, after, rfl, quiet, starts⟩ := ungrouped
  obtain ⟨name, starts⟩ := Option.isSome_iff_exists.1 starts
  have unnamed : markerNames before = [] := by
    rw [markerNames, List.filterMap_eq_nil_iff]
    intro line member
    rw [(quiet line member).noMarker]
    rfl
  have first : groupsNamed group [] before = [] := by
    rw [groupsNamed_inside group [] fun line member => (quiet line member).noStart, unnamed]
  have home : groupAfter group before = group := by
    rw [groupAfter, unnamed]
    rfl
  refine ⟨groupsNamed group (before ++ [start]) after, ?_⟩
  rw [groupsNamed_append, first, List.nil_append, List.nil_append, ← List.singleton_append,
    groupsNamed_append, groupsNamed_start starts, home]
  rfl

/-- A group that no marker names is the one at the outset, and is used before any marker: behind a
marker the group named last takes its place for good. -/
theorem startsUngrouped_of_mem {given : List (List Char)} {group name : String}
    {before : List (List Char)} (used : name ∈ groupsNamed group before given)
    (unnamed : name ∉ markerNames given) :
    name = groupAfter group before ∧ StartsUngrouped given := by
  induction given generalizing before with
  | nil => cases used
  | cons line given ih =>
    rw [← List.singleton_append, groupsNamed_append, List.mem_append] at used
    cases marks : Line.group? line with
    | some marker =>
      rw [markerNames_cons_marker marks, List.mem_cons, not_or] at unnamed
      rcases used with here | later
      · rw [groupsNamed_marker marks, List.mem_singleton] at here
        exact absurd here unnamed.1
      · have last := (ih later unnamed.2).1
        rw [groupAfter_append, groupAfter_marker marks] at last
        exact absurd last unnamed.1
    | none =>
      rw [markerNames_cons_other marks] at unnamed
      have stays : groupAfter group (before ++ [line]) = groupAfter group before := by
        rw [groupAfter_append, groupAfter_other marks]
        rfl
      cases starts : Line.command? line with
      | some started =>
        refine ⟨?_, [], line, given, rfl, List.forall_mem_nil _, by rw [starts]; rfl⟩
        rcases used with here | later
        · rw [groupsNamed_start starts, List.mem_singleton] at here
          exact here
        · exact (ih later unnamed).1.trans stays
      | none =>
        have inner : Line.Inner line := ⟨marks, starts⟩
        rcases used with here | later
        · rw [groupsNamed_inner inner] at here
          cases here
        · obtain ⟨same, ungrouped⟩ := ih later unnamed
          exact ⟨same.trans stays, ungrouped.cons inner⟩

private theorem mem_groupsNamed_of_marker {given : List (List Char)} {name : String}
    (named : name ∈ markerNames given) (group : String) (before : List (List Char)) :
    name ∈ groupsNamed group before given := by
  induction given generalizing before with
  | nil => cases named
  | cons line given ih =>
    rw [← List.singleton_append, groupsNamed_append, List.mem_append]
    cases marks : Line.group? line with
    | some marker =>
      rw [markerNames_cons_marker marks, List.mem_cons] at named
      rcases named with rfl | later
      · rw [groupsNamed_marker marks]
        exact .inl List.mem_cons_self
      · exact .inr (ih later _)
    | none =>
      rw [markerNames_cons_other marks] at named
      exact .inr (ih named _)

private theorem mem_groupsNamed_iff {given : List (List Char)} {group : String} :
    group ∈ groupsNamed group [] given ↔ group ∈ markerNames given ∨ StartsUngrouped given := by
  constructor
  · intro used
    by_cases named : group ∈ markerNames given
    · exact .inl named
    · exact .inr (startsUngrouped_of_mem used named).2
  · rintro (named | ungrouped)
    · exact mem_groupsNamed_of_marker named group []
    · obtain ⟨later, shape⟩ := groupsNamed_of_startsUngrouped ungrouped group
      rw [shape]
      exact List.mem_cons_self

/-- A command as a source declares it, with a name. -/
structure Command.Declared (command : Command) : Prop extends command.Fresh where
  named : command.name ≠ ""
  unused : command.usage = none

theorem Registry.groupNames_ensureGroup_eraseDups {registry : Registry} {names : List String}
    (same : registry.groupNames = names.eraseDups) (name : String) :
    (registry.ensureGroup name).groupNames = (names ++ [name]).eraseDups := by
  simp only [groupNames_ensureGroup, same, eraseDups_concat, List.mem_eraseDups]

namespace Scanner

/-- A scanner that has been fed these lines, and the names it has taken from them. -/
structure Records (group : String) (before : List (List Char)) (scanner : Scanner) : Prop where
  current : scanner.group = groupAfter group before
  names : scanner.registry.groupNames = (groupsNamed group [] before).eraseDups
  commands : scanner.registry.Every Command.Declared

private theorem records_start (group : String) : Records group [] (start group) where
  current := rfl
  names := rfl
  commands := by simp [Registry.Every, start, Registry.empty]

theorem groupsNamed_concat_inner {line : List Char} (inner : Line.Inner line) (group : String)
    (before : List (List Char)) :
    groupsNamed group [] (before ++ [line]) = groupsNamed group [] before := by
  rw [groupsNamed_append, groupsNamed_inner inner, List.append_nil]

variable {group : String} {before : List (List Char)} {scanner next : Scanner} {line : List Char}

theorem Records.updated (records : Records group before scanner) (inner : Line.Inner line)
    (ref : CommandRef) {change : Command → Command}
    (keeps : ∀ command : Command, command.Declared → (change command).Declared)
    (state : ScanState) :
    Records group (before ++ [line])
      ⟨scanner.registry.updateAt ref change, scanner.group, state⟩ := by
  constructor
  · rw [groupAfter_inner inner]
    exact records.current
  · rw [groupsNamed_concat_inner inner, ← records.names]
    exact scanner.registry.groupNames_updateAt ref change
  · exact records.commands.updateAt ref keeps

theorem Records.step (records : Records group before scanner) (step : scanner.Step line next)
    (oneLine : '\n' ∉ line) : Records group (before ++ [line]) next := by
  cases step with
  | @marked name marks =>
    constructor
    · rw [groupAfter_append, groupAfter_marker marks]
      rfl
    · rw [groupsNamed_append, groupsNamed_marker marks]
      exact Registry.groupNames_ensureGroup_eraseDups records.names _
    · exact records.commands.ensureGroup _
  | @started name starts =>
    have shape := Line.infix_of_command? starts
    constructor
    · rw [groupAfter_append, groupAfter_other (Line.group?_of_command? starts)]
      exact records.current
    · rw [groupsNamed_append, List.nil_append, groupsNamed_start starts, ← records.current]
      have added := scanner.registry.groupNames_push scanner.group (.ofName (String.ofList name))
      exact added.trans (Registry.groupNames_ensureGroup_eraseDups records.names _)
    · apply records.commands.push
      refine ⟨⟨?_, rfl⟩, ?_, rfl⟩
      · change '\n' ∉ (String.ofList name).toList
        rw [String.toList_ofList]
        exact fun found => oneLine (shape.2.subset found)
      · change String.ofList name ≠ ""
        rw [ne_eq, String.ofList_eq_empty_iff]
        exact shape.1
  | passed state inner held =>
    constructor
    · rw [groupAfter_inner inner]
      exact records.current
    · rw [groupsNamed_concat_inner inner]
      exact records.names
    · exact records.commands
  | described inner held given =>
    apply records.updated inner
    intro command old
    exact ⟨⟨old.oneLine, old.bare⟩, old.named, old.unused⟩
  | declared kind argument inner held =>
    apply records.updated inner
    intro command old
    cases kind <;> exact ⟨⟨old.oneLine, old.bare⟩, old.named, old.unused⟩

theorem Records.finish (records : Records group before scanner) :
    scanner.finish.groupNames = (groupsNamed group [] before).eraseDups ∧
      scanner.finish.Every Command.Declared := by
  unfold Scanner.finish
  split
  · rename_i ref text reading
    constructor
    · exact (scanner.registry.groupNames_updateAt ref _).trans records.names
    · apply records.commands.updateAt
      intro command old
      exact ⟨⟨old.oneLine, old.bare⟩, old.named, old.unused⟩
  · exact ⟨records.names, records.commands⟩

end Scanner

theorem Registry.recorded_of_ofSource {group source : String} {registry : Registry}
    (done : Registry.ofSource group source = .ok registry) :
    registry.groupNames = (groupsNamed group [] (lines source.toList)).eraseDups ∧
      registry.Every Command.Declared := by
  obtain ⟨final, scanned, rfl⟩ := Registry.exists_run_of_ofSource done
  have records : Scanner.Records group (lines source.toList) final := by
    refine Scanner.run_preserves (Scanner.Records group) ?_ [] (Scanner.records_start group) scanned
    intro line member before scanner next step records
    exact records.step step (notMem_of_mem_lines member)
  exact records.finish

theorem headable_of_mem_markerNames {given : List (List Char)} {name : String}
    (named : name ∈ markerNames given) : name ≠ "" ∧ Document.Headable name := by
  rw [markerNames, List.mem_filterMap] at named
  obtain ⟨line, -, shown⟩ := named
  obtain ⟨text, marks, rfl⟩ := Option.map_eq_some_iff.1 shown
  have shape := Line.headable_of_group? marks
  refine ⟨?_, shape.2⟩
  rw [ne_eq, String.ofList_eq_empty_iff]
  exact shape.1

/-- Every source declares a registry whose groups can be told apart by their headings: of the names
that it records only the initial one may come from no marker. -/
theorem Registry.fresh_ofSource {group source : String} (headable : Document.Headable group)
    {registry : Registry} (done : Registry.ofSource group source = .ok registry) :
    registry.Fresh := by
  obtain ⟨names, commands⟩ := Registry.recorded_of_ofSource done
  refine ⟨?_, ?_, fun found inside command member => (commands found inside command member).toFresh⟩
  · rw [names]
    exact Registry.nodup_eraseDups _
  · intro found inside
    have used : found.name ∈ registry.groupNames := List.mem_map_of_mem inside
    rw [names, List.mem_eraseDups] at used
    by_cases named : found.name ∈ markerNames (lines source.toList)
    · exact (headable_of_mem_markerNames named).2
    · rw [(startsUngrouped_of_mem used named).1]
      exact headable

/-- A source gives names that headings can carry. Groups differ in name and stand in the order in
which they are first named or used. All but the initial one have a name that is read back from
their heading; the initial one is there if it is named or if a command starts before any group is
named, and in this case it is the first. Commands have a name on one line and nothing that an older
document would add. -/
theorem Registry.ofSource_names {group source : String} {registry : Registry}
    (done : Registry.ofSource group source = .ok registry) :
    registry.groupNames.Nodup ∧
    registry.groupNames = (groupsNamed group [] (lines source.toList)).eraseDups ∧
    (∀ name ∈ registry.groupNames, name ≠ group →
      name ≠ "" ∧ '\n' ∉ name.toList ∧ trim name.toList = name.toList ∧
      ∀ settings (state : Outline.State) rest, state.Settled → (∀ c ∈ rest.head?, c = '\n') →
        state.readAll settings (rawLines (("### ".toList ++ name.toList) ++ rest)) =
          (Document.enterGroup name state).readAll settings (rawLines rest)) ∧
    (group ∈ registry.groupNames ↔
      group ∈ markerNames (lines source.toList) ∨ StartsUngrouped (lines source.toList)) ∧
    (StartsUngrouped (lines source.toList) → registry.groupNames.head? = some group) ∧
    ∀ found ∈ registry.groups, ∀ command ∈ found.commands,
      command.name ≠ "" ∧ '\n' ∉ command.name.toList ∧ command.examples = [] ∧
      command.usage = none := by
  obtain ⟨names, commands⟩ := Registry.recorded_of_ofSource done
  refine ⟨?_, names, fun name member other => ?_, ?_, fun ungrouped => ?_,
    fun found inside command member => ?_⟩
  · rw [names]
    exact Registry.nodup_eraseDups _
  · rw [names, List.mem_eraseDups] at member
    -- Only the initial group can be used without having been named.
    have marked : name ∈ markerNames (lines source.toList) := by
      by_contra unnamed
      exact other (startsUngrouped_of_mem member unnamed).1
    obtain ⟨nonempty, headable⟩ := headable_of_mem_markerNames marked
    refine ⟨nonempty, headable.oneLine, headable.trimmed, ?_⟩
    intro settings state rest settled leading
    exact Document.readAll_groupHeading settings settled headable leading
  · rw [names, List.mem_eraseDups]
    exact mem_groupsNamed_iff
  · obtain ⟨later, shape⟩ := groupsNamed_of_startsUngrouped ungrouped group
    rw [names, shape, List.eraseDups_cons]
    rfl
  · have declared := commands found inside command member
    exact ⟨declared.named, declared.oneLine, declared.bare, declared.unused⟩

/-- A command before the first marker. -/
def ungroupedSource : String :=
  "SlashCommandParser.addCommandObject(SlashCommand.fromProps(\x7bname:'a',\n// GROUP:  B \n"

theorem Registry.ofSource_names_ungrouped :
    ∃ registry, Registry.ofSource "" ungroupedSource = .ok registry ∧
      StartsUngrouped (lines ungroupedSource.toList) ∧ registry.groupNames.head? = some "" ∧
      "B" ∈ registry.groupNames ∧ ∀ settings (state : Outline.State), state.Settled →
        state.readAll settings (rawLines "### B".toList) = .ok (Document.enterGroup "B" state) := by
  have done : Registry.ofSource "" ungroupedSource =
      .ok ⟨[⟨"", [.ofName "a"]⟩, ⟨"B", []⟩]⟩ := by
    decide +kernel
  obtain ⟨-, -, headings, present, first, -⟩ := Registry.ofSource_names done
  have ungrouped : StartsUngrouped (lines ungroupedSource.toList) := by
    refine (present.1 (by decide)).resolve_left ?_
    decide +kernel
  refine ⟨_, done, ungrouped, first ungrouped, by decide, ?_⟩
  intro settings state settled
  have heading : "### B".toList = ("### ".toList ++ "B".toList) ++ [] := by decide
  rw [heading, (headings "B" (by decide) (by decide)).2.2.2 settings state [] settled nofun]
  rfl

end CommandReference
