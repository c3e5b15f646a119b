import CommandReference.Proofs.Source.Steps

/-! A scan never loses its command. Whatever lines a scanner has been fed, the command at hand is
the one that was started last and can be found in the registry, and no line changes a command
that has been closed. -/
namespace CommandReference
open Text

/-- The commands that lines start, in order, each with the group that was named last before it. -/
def startsIn (group : String) : List (List Char) → List (String × String)
  | [] => []
  | line :: later =>
    match Line.group? line with
    | some name => startsIn (String.ofList name) later
    | none =>
      match Line.command? line with
      | some name => (group, String.ofList name) :: startsIn group later
      | none => startsIn group later

/-- The names of the commands that were started in one group. -/
def startedIn (home : String) (starts : List (String × String)) : List String :=
  (starts.filter (·.1 == home)).map (·.2)

theorem startedIn_append (home : String) (first second : List (String × String)) :
    startedIn home (first ++ second) = startedIn home first ++ startedIn home second := by
  simp [startedIn]

theorem groupAfter_marker {line name : List Char} (marks : Line.group? line = some name)
    (group : String) (later : List (List Char)) :
    groupAfter group (line :: later) = groupAfter (String.ofList name) later := by
  unfold groupAfter
  rw [markerNames_cons_marker marks, List.getLast?_cons]
  rfl

theorem groupAfter_other {line : List Char} (other : Line.group? line = none) (group : String)
    (later : List (List Char)) : groupAfter group (line :: later) = groupAfter group later := by
  unfold groupAfter
  rw [markerNames_cons_other other]

theorem startsIn_append (group : String) (before after : List (List Char)) :
    startsIn group (before ++ after) =
      startsIn group before ++ startsIn (groupAfter group before) after := by
  induction before generalizing group with
  | nil => rfl
  | cons line before ih =>
    cases marks : Line.group? line with
    | some name => simp [startsIn, marks, groupAfter_marker marks, ih]
    | none =>
      cases starts : Line.command? line with
      | some name => simp [startsIn, marks, starts, groupAfter_other marks, ih]
      | none => simp [startsIn, marks, starts, groupAfter_other marks, ih]

private theorem Registry.names_updateAt (registry : Registry) (ref : CommandRef)
    {change : Command → Command} (keeps : ∀ command, (change command).name = command.name)
    (home : String) :
    ((registry.updateAt ref change).commandsOf home).map (·.name) =
      (registry.commandsOf home).map (·.name) := by
  rw [Registry.commandsOf_updateAt]
  split
  · apply List.ext_getElem?
    intro index
    rw [List.getElem?_map, List.getElem?_map, List.getElem?_modify]
    cases (registry.commandsOf home)[index]? with
    | none => rfl
    | some command =>
      by_cases here : ref.index = index
      · simp [here, keeps]
      · simp [here]
  · rfl

/-- A command with more arguments than it had, and perhaps with another help text. -/
structure Command.Grows (old new : Command) : Prop where
  name : new.name = old.name
  usage : new.usage = old.usage
  examples : new.examples = old.examples
  named : old.named <+: new.named
  unnamed : old.unnamed <+: new.unnamed

theorem Command.Grows.refl (command : Command) : command.Grows command :=
  ⟨rfl, rfl, rfl, List.prefix_refl _, List.prefix_refl _⟩

theorem Command.Grows.trans {first second third : Command} (left : first.Grows second)
    (right : second.Grows third) : first.Grows third where
  name := right.name.trans left.name
  usage := right.usage.trans left.usage
  examples := right.examples.trans left.examples
  named := left.named.trans right.named
  unnamed := left.unnamed.trans right.unnamed

theorem Command.grows_addArgument (kind : ArgumentKind) (argument : Argument)
    (command : Command) : command.Grows (command.addArgument kind argument) := by
  cases kind with
  | named => exact ⟨rfl, rfl, rfl, List.prefix_append _ _, List.prefix_refl _⟩
  | unnamed => exact ⟨rfl, rfl, rfl, List.prefix_refl _, List.prefix_append _ _⟩

namespace Scanner

/-- A scanner that has been fed these lines. -/
structure Tracks (group : String) (before : List (List Char)) (scanner : Scanner) : Prop where
  current : scanner.group = groupAfter group before
  distinct : scanner.registry.groupNames.Nodup
  names : ∀ home, (scanner.registry.commandsOf home).map (·.name) =
    startedIn home (startsIn group before)
  held : ∀ ref, scanner.state.held? = some ref →
    ∃ earlier home name, startsIn group before = earlier ++ [(home, name)] ∧
      ref = ⟨home, (startedIn home earlier).length⟩

theorem tracks_start (group : String) : Tracks group [] (start group) where
  current := rfl
  distinct := List.nodup_nil
  names home := rfl
  held ref held := by cases held

variable {group : String} {before : List (List Char)} {scanner : Scanner} {line : List Char}

theorem startsIn_inner (inner : Line.Inner line) (group : String) (before : List (List Char)) :
    startsIn group (before ++ [line]) = startsIn group before := by
  simp [startsIn_append, startsIn, inner.noMarker, inner.noStart]

theorem groupAfter_inner (inner : Line.Inner line) (group : String) (before : List (List Char)) :
    groupAfter group (before ++ [line]) = groupAfter group before := by
  rw [groupAfter_append, groupAfter_other inner.noMarker]
  rfl

theorem Tracks.marked (tracks : Tracks group before scanner) {name : List Char}
    (marks : Line.group? line = some name) :
    Tracks group (before ++ [line]) (scanner.enterGroup (String.ofList name)) := by
  have starts : startsIn group (before ++ [line]) = startsIn group before := by
    simp [startsIn_append, startsIn, marks]
  constructor
  · rw [groupAfter_append, groupAfter_marker marks]
    rfl
  · exact Registry.nodup_ensureGroup _ tracks.distinct _
  · intro home
    rw [starts, ← tracks.names]
    exact congrArg _ (Registry.commandsOf_ensureGroup _ _ _)
  · rw [starts]
    exact tracks.held

theorem Tracks.started (tracks : Tracks group before scanner) {name : List Char}
    (starts : Line.command? line = some name) (noMarker : Line.group? line = none) :
    Tracks group (before ++ [line]) (scanner.openCommand (String.ofList name)) := by
  have added : startsIn group (before ++ [line]) =
      startsIn group before ++ [(scanner.group, String.ofList name)] := by
    simp [startsIn_append, startsIn, noMarker, starts, tracks.current]
  constructor
  · rw [groupAfter_append, groupAfter_other noMarker]
    exact tracks.current
  · have names := Registry.groupNames_push scanner.registry scanner.group
      (.ofName (String.ofList name))
    have distinct := Registry.nodup_ensureGroup _ tracks.distinct scanner.group
    rw [← names] at distinct
    exact distinct
  · intro home
    have commands := Registry.commandsOf_push scanner.registry scanner.group
      (.ofName (String.ofList name)) home
    rw [added, startedIn_append, ← tracks.names]
    change ((scanner.registry.push _ _).commandsOf home).map (·.name) = _
    rw [commands, List.map_append]
    by_cases same : home = scanner.group
    · simp [same, startedIn, Command.ofName]
    · simp [same, Ne.symm same, startedIn]
  · rintro ref ⟨⟩
    refine ⟨_, _, _, added, ?_⟩
    rw [Registry.nextRef_eq, ← tracks.names, List.length_map]

theorem Tracks.updated (tracks : Tracks group before scanner) (inner : Line.Inner line)
    (ref : CommandRef) {change : Command → Command}
    (keeps : ∀ command, (change command).name = command.name) {state : ScanState}
    (held : ∀ ref, state.held? = some ref → scanner.state.held? = some ref) :
    Tracks group (before ++ [line])
      ⟨scanner.registry.updateAt ref change, scanner.group, state⟩ := by
  constructor
  · rw [groupAfter_inner inner]
    exact tracks.current
  · dsimp only
    rw [Registry.groupNames_updateAt]
    exact tracks.distinct
  · intro home
    rw [startsIn_inner inner, ← tracks.names]
    exact Registry.names_updateAt _ _ keeps home
  · intro other found
    rw [startsIn_inner inner]
    exact tracks.held other (held other found)

theorem Tracks.step (tracks : Tracks group before scanner) {next : Scanner}
    (step : scanner.Step line next) : Tracks group (before ++ [line]) next := by
  cases step with
  | marked marks => exact tracks.marked marks
  | started starts => exact tracks.started starts (Line.group?_of_command? starts)
  | passed state inner held =>
    constructor
    · rw [groupAfter_inner inner]
      exact tracks.current
    · exact tracks.distinct
    · rw [startsIn_inner inner]
      exact tracks.names
    · intro ref found
      rw [startsIn_inner inner]
      exact tracks.held ref (held ref found)
  | described inner held given =>
    apply tracks.updated inner
    · intro command
      rfl
    · intro ref found
      cases found
  | declared kind argument inner held =>
    apply tracks.updated inner
    · exact fun command => (command.grows_addArgument kind argument).name
    · intro ref same
      exact held.trans same

theorem tracks_feedAll (tracks : Tracks group before scanner) (given : List (Nat × List Char)) :
    Tracks group (before ++ given.map (·.2)) (scanner.feedAll given) := by
  induction given generalizing before scanner with
  | nil =>
    rw [List.map_nil, List.append_nil]
    exact tracks
  | cons item given ih =>
    have later := ih (tracks.step (scanner.step_feed item.1 item.2))
    rw [List.append_assoc] at later
    exact later

theorem tracks_of_reached {given : List (Nat × List Char)}
    (reached : (start group).feedAll given = scanner) :
    Tracks group (given.map (·.2)) scanner := by
  rw [← reached]
  exact tracks_feedAll (tracks_start group) given

theorem Tracks.resolves (tracks : Tracks group before scanner) {ref : CommandRef}
    (held : scanner.state.held? = some ref) :
    ∃ earlier home name command, startsIn group before = earlier ++ [(home, name)] ∧
      ref = ⟨home, (startedIn home earlier).length⟩ ∧
      scanner.registry.command? ref = some command ∧ command.name = name := by
  obtain ⟨earlier, home, name, starts, place⟩ := tracks.held ref held
  have names := tracks.names home
  have last : startedIn home [(home, name)] = [name] := by simp [startedIn]
  rw [starts, startedIn_append, last] at names
  have found := congrArg (·[(startedIn home earlier).length]?) names
  simp only [List.getElem?_map, List.getElem?_concat_length, Option.map_eq_some_iff] at found
  obtain ⟨command, inside, called⟩ := found
  refine ⟨earlier, home, name, command, starts, place, ?_, called⟩
  rw [place, Registry.command?_eq_getElem?]
  exact inside

/-- What lines do to the commands that are there: those that are not at hand stay as they are and
never come to hand again, and the one at hand can only grow. -/
structure Keeps (scanner next : Scanner) : Prop where
  groups : scanner.registry.groupNames <+: next.registry.groupNames
  closed : ∀ ref command, scanner.registry.command? ref = some command →
    scanner.state.held? ≠ some ref →
    next.registry.command? ref = some command ∧ next.state.held? ≠ some ref
  opened : ∀ ref command, scanner.state.held? = some ref →
    scanner.registry.command? ref = some command →
    ∃ grown, next.registry.command? ref = some grown ∧ command.Grows grown

theorem Keeps.refl (scanner : Scanner) : scanner.Keeps scanner where
  groups := List.prefix_refl _
  closed _ _ found apart := ⟨found, apart⟩
  opened _ command _ found := ⟨command, found, .refl command⟩

theorem Keeps.trans {first second third : Scanner} (left : first.Keeps second)
    (right : second.Keeps third) : first.Keeps third := by
  constructor
  · exact left.groups.trans right.groups
  · intro ref command found apart
    obtain ⟨found, apart⟩ := left.closed ref command found apart
    exact right.closed ref command found apart
  · intro ref command held found
    obtain ⟨middle, found, grows⟩ := left.opened ref command held found
    by_cases still : second.state.held? = some ref
    · obtain ⟨grown, found, later⟩ := right.opened ref middle still found
      exact ⟨grown, found, grows.trans later⟩
    · exact ⟨middle, (right.closed ref middle found still).1, grows⟩

theorem groupNames_isPrefix_ensureGroup (registry : Registry) (name : String) :
    registry.groupNames <+: (registry.ensureGroup name).groupNames := by
  rw [Registry.groupNames_ensureGroup]
  split
  · exact List.prefix_refl _
  · exact List.prefix_append _ _

/-- A change of the command at hand touches no other command. -/
theorem Keeps.updated {ref : CommandRef} (held : scanner.state.held? = some ref)
    {change : Command → Command} (grows : ∀ command, Command.Grows command (change command))
    {state : ScanState} (same : ∀ other, state.held? = some other → other = ref) :
    scanner.Keeps ⟨scanner.registry.updateAt ref change, scanner.group, state⟩ := by
  constructor
  · simp only [Registry.groupNames_updateAt, List.prefix_refl]
  · intro other command found apart
    have elsewhere : other ≠ ref := by
      rintro rfl
      exact apart held
    dsimp only
    rw [Registry.command?_updateAt, if_neg elsewhere]
    exact ⟨found, fun again => elsewhere (same other again)⟩
  · intro other command here found
    have equal : other = ref := Option.some.inj (here.symm.trans held)
    dsimp only
    rw [Registry.command?_updateAt, if_pos equal, found]
    exact ⟨change command, rfl, grows command⟩

theorem Step.keeps {next : Scanner} (step : scanner.Step line next) : scanner.Keeps next := by
  cases step with
  | marked marks =>
    constructor
    · exact groupNames_isPrefix_ensureGroup _ _
    · intro ref command found apart
      exact ⟨(Registry.command?_ensureGroup _ _ _).trans found, apart⟩
    · intro ref command held found
      exact ⟨command, (Registry.command?_ensureGroup _ _ _).trans found, .refl command⟩
  | @started name starts =>
    -- A new command takes a place at which nothing stood.
    have fresh (ref : CommandRef) (command : Command)
        (found : scanner.registry.command? ref = some command) :
        ref ≠ scanner.registry.nextRef scanner.group := by
      rintro rfl
      rw [Registry.command?_nextRef] at found
      cases found
    have stays (ref : CommandRef) (command : Command)
        (found : scanner.registry.command? ref = some command) :
        (scanner.openCommand (String.ofList name)).registry.command? ref = some command :=
      (Registry.command?_push_of_ne _ _ _ (fresh ref command found)).trans found
    constructor
    · refine (groupNames_isPrefix_ensureGroup _ scanner.group).trans ?_
      rw [← Registry.groupNames_push scanner.registry scanner.group (.ofName (String.ofList name))]
      exact List.prefix_refl _
    · intro ref command found apart
      refine ⟨stays ref command found, fun again => fresh ref command found ?_⟩
      exact (Option.some.inj again).symm
    · intro ref command held found
      exact ⟨command, stays ref command found, .refl command⟩
  | passed state inner held =>
    constructor
    · exact List.prefix_refl _
    · intro ref command found apart
      exact ⟨found, fun again => apart (held ref again)⟩
    · intro ref command here found
      exact ⟨command, found, .refl command⟩
  | described inner held given =>
    apply Keeps.updated held
    · intro command
      exact ⟨rfl, rfl, rfl, List.prefix_refl _, List.prefix_refl _⟩
    · intro other found
      cases found
  | declared kind argument inner held =>
    apply Keeps.updated held
    · exact Command.grows_addArgument kind argument
    · rintro other ⟨⟩
      rfl

theorem keeps_feedAll (given : List (Nat × List Char)) (scanner : Scanner) :
    scanner.Keeps (scanner.feedAll given) := by
  induction given generalizing scanner with
  | nil => exact .refl scanner
  | cons item given ih => exact (scanner.step_feed item.1 item.2).keeps.trans (ih _)

theorem feed_of_marker {name : List Char} (marks : Line.group? line = some name)
    (scanner : Scanner) (number : Nat) :
    scanner.feed number line = (scanner.enterGroup (String.ofList name), none) :=
  feed_of_ok (advanced_of_marker marks)

theorem feed_of_command {name : List Char} (starts : Line.command? line = some name)
    (scanner : Scanner) (number : Nat) :
    scanner.feed number line = (scanner.openCommand (String.ofList name), none) :=
  feed_of_ok (advanced_of_command (Line.group?_of_command? starts) starts)

end Scanner

end CommandReference
