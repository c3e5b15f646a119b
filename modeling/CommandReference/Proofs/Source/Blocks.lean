import CommandReference.Proofs.Source.Session
import Mathlib.Data.List.Forall2

/-! Extraction is compositional. A source is cut before each line that starts a command; each
block can be scanned alone, and the registry of the source is put together from what the
blocks give. -/
namespace CommandReference
open Text

/-- The lines before the first command, and the lines of each command. -/
def cut : List (List Char) → List (List Char) × List (List (List Char))
  | [] => ([], [])
  | line :: later =>
    if (Line.command? line).isSome then ([], (line :: (cut later).1) :: (cut later).2)
    else (line :: (cut later).1, (cut later).2)

/-- The lines of one command within a source. -/
structure Block where
  /-- All lines of the source before the block. -/
  before : List (List Char)
  lines : List (List Char)
  /-- Whether the source ends with the block. -/
  isLast : Bool
  deriving DecidableEq

def blocksAfter (before : List (List Char)) : List (List (List Char)) → List Block
  | [] => []
  | block :: later => ⟨before, block, later.isEmpty⟩ :: blocksAfter (before ++ block) later

def blocks (given : List (List Char)) : List Block := blocksAfter (cut given).1 (cut given).2

/-- The groups that lines name or use, in order: a marker names a group, the start of a
command uses the one that was named last. -/
def groupsNamed (group : String) (before : List (List Char)) : List (List Char) → List String
  | [] => []
  | line :: later =>
    (match Line.group? line with
      | some name => [String.ofList name]
      | none => if (Line.command? line).isSome then [groupAfter group before] else []) ++
    groupsNamed group (before ++ [line]) later

namespace Block

/-- The group of the command. -/
def group (initial : String) (block : Block) : String := groupAfter initial block.before

/-- A fresh scanner is given the block alone; the end of the text is told it only if the
source ends there. -/
def alone (initial : String) (block : Block) : Except SourceError Registry :=
  ((Scanner.start initial).run 1 block.lines).map fun final =>
    if block.isLast then final.finish else final.registry

/-- The block alone gives one command, and this is its record. -/
def Gives (initial : String) (block : Block) (record : Command) : Prop :=
  ∃ registry, block.alone initial = .ok registry ∧
    registry.groups.flatMap (·.commands) = [record]

end Block

inductive IsBlock : List (List Char) → Prop where
  | mk {line name : List Char} {later : List (List Char)} : Line.command? line = some name →
      (∀ line ∈ later, Line.command? line = none) → IsBlock (line :: later)

theorem flatten_cut (given : List (List Char)) :
    (cut given).1 ++ (cut given).2.flatten = given := by
  induction given with
  | nil => rfl
  | cons line later ih =>
    rw [cut]
    split
    · simp [ih]
    · simp [ih]

theorem cut_preamble (given : List (List Char)) :
    ∀ line ∈ (cut given).1, Line.command? line = none := by
  induction given with
  | nil => simp [cut]
  | cons line later ih =>
    rw [cut]
    split
    · simp
    · next other =>
      rw [List.forall_mem_cons]
      exact ⟨by simpa using other, ih⟩

theorem cut_blocks (given : List (List Char)) : ∀ block ∈ (cut given).2, IsBlock block := by
  induction given with
  | nil => simp [cut]
  | cons line later ih =>
    rw [cut]
    split
    · next starts =>
      obtain ⟨name, starts⟩ := Option.isSome_iff_exists.1 starts
      rw [List.forall_mem_cons]
      exact ⟨.mk starts (cut_preamble later), ih⟩
    · exact ih

/-- A command start opens a session, whatever was at work before. -/
theorem advanced_start {line name : List Char} (starts : Line.command? line = some name)
    (log : List Mention) (group : String) (state : ScanState) (number : Nat) :
    Scanner.advanced number line ⟨.ofLog log, group, state⟩ =
      .ok ((Session.start name).scanner log [] group group) := by
  rw [Scanner.advanced_of_command (Line.group?_of_command? starts) starts, Scanner.openCommand,
    Registry.push_ofLog, Registry.nextRef_ofLog]
  rfl

/-- The scan of the command of a block. -/
def sessionOf : List (List Char) → Except SourceError Session
  | [] => .ok (.start [])
  | line :: later => (Session.start ((Line.command? line).getD [])).run 2 later

theorem run_block {given : List (List Char)} (valid : IsBlock given) (log : List Mention)
    (group : String) (state : ScanState) (count : Nat) :
    Scanner.run (1 + count) given ⟨.ofLog log, group, state⟩ =
      ((sessionOf given).mapError (·.shift count)).map
        (Session.scanner log (markers given) group (groupAfter group given)) := by
  cases valid with
  | @mk line name later starts inside =>
    have quiet := markerNames_cons_other (Line.group?_of_command? starts) later
    have noted : markers (line :: later) = [] ++ markers later := by
      rw [markers, quiet]
      rfl
    have stays : groupAfter group (line :: later) = groupAfter group later := by
      rw [groupAfter, quiet]
      rfl
    have read : sessionOf (line :: later) = (Session.start name).run 2 later := by
      rw [sessionOf, starts]
      rfl
    have number : 1 + count + 1 = 2 + count := by omega
    rw [Scanner.run_cons, advanced_start starts, noted, stays, read, ← Session.run_shift, ← number]
    exact Session.run_scanner log [] group group _ inside _

/-- Lines before the first command only name groups. -/
theorem run_preamble {given : List (List Char)}
    (inside : ∀ line ∈ given, Line.command? line = none) (log : List Mention) (group : String)
    (number : Nat) :
    Scanner.run number given ⟨.ofLog log, group, .idle⟩ =
      .ok ⟨.ofLog (log ++ markers given), groupAfter group given, .idle⟩ := by
  induction given generalizing log group number with
  | nil =>
    rw [show markers [] = [] from rfl, List.append_nil]
    rfl
  | cons line given ih =>
    rw [List.forall_mem_cons] at inside
    rw [Scanner.run_cons]
    cases marks : Line.group? line with
    | some name =>
      rw [Scanner.advanced_of_marker marks, Scanner.enterGroup, Registry.ensureGroup_ofLog]
      refine (ih inside.2 _ _ _).trans ?_
      rw [List.append_assoc, groupAfter, groupAfter, markers, markers,
        markerNames_cons_marker marks, List.getLast?_cons]
      rfl
    | none =>
      rw [Scanner.advanced_of_inner ⟨marks, inside.1⟩, groupAfter, markers,
        markerNames_cons_other marks]
      exact ih inside.2 log group (number + 1)

namespace Block

/-- What the block leaves of its command. -/
def record (block : Block) (session : Session) : Command :=
  if block.isLast then session.finish else session.command

/-- What the block adds to a log. -/
def mentions (initial : String) (block : Block) : Except SourceError (List Mention) :=
  ((sessionOf block.lines).mapError (·.shift block.before.length)).map fun session =>
    .entry (block.group initial) (block.record session) :: markers block.lines

end Block

private theorem run_blocks (initial : String) (given : List (List (List Char))) (some : given ≠ [])
    (valid : ∀ block ∈ given, IsBlock block) (log : List Mention) (before : List (List Char))
    (state : ScanState) :
    (Scanner.run (1 + before.length) given.flatten
        ⟨.ofLog log, groupAfter initial before, state⟩).map Scanner.finish =
      ((blocksAfter before given).mapM (Block.mentions initial)).map fun added =>
        .ofLog (log ++ added.flatten) := by
  induction given generalizing log before state with
  | nil => exact absurd rfl some
  | cons block later ih =>
    rw [List.forall_mem_cons] at valid
    rw [List.flatten_cons, Scanner.run_append, run_block valid.1, blocksAfter, List.mapM_cons,
      Block.mentions]
    dsimp only
    cases sessionOf block with
    | error error => rfl
    | ok session =>
      cases later with
      | nil =>
        have finished := session.finish_scanner log (markers block) (groupAfter initial before)
          (groupAfter (groupAfter initial before) block)
        refine (congrArg Except.ok finished).trans ?_
        exact congrArg (fun added => Except.ok (Registry.ofLog (log ++ added)))
          (List.append_nil _).symm
      | cons next later =>
        have rest := ih (List.cons_ne_nil _ _) valid.2
          (log ++ .entry (groupAfter initial before) session.command :: markers block)
          (before ++ block)
          (session.phase.scanState (Registry.refAfter log (groupAfter initial before)))
        rw [List.length_append, ← Nat.add_assoc, groupAfter_append] at rest
        refine Eq.trans rest ?_
        cases (blocksAfter (before ++ block) (next :: later)).mapM (Block.mentions initial) with
        | error error => rfl
        | ok added =>
          exact congrArg (fun log => Except.ok (Registry.ofLog log)) (List.append_assoc _ _ _)

/-- A source adds to the empty log what its blocks add, up to the first one that fails. -/
theorem ofSource_eq_mapM (initial source : String) :
    Registry.ofSource initial source =
      ((blocks (lines source.toList)).mapM (Block.mentions initial)).map fun added =>
        .ofLog (markers (cut (lines source.toList)).1 ++ added.flatten) := by
  have scans : Registry.ofSource initial source =
      ((Scanner.start initial).run 1 (lines source.toList)).map Scanner.finish :=
    Scanner.scan_eq_run _ _
  rw [scans]
  generalize lines source.toList = given
  have preamble : (Scanner.start initial).run 1 (cut given).1 =
      .ok ⟨.ofLog (markers (cut given).1), groupAfter initial (cut given).1, .idle⟩ :=
    run_preamble (cut_preamble given) [] initial 1
  conv_lhs => rw [← flatten_cut given, Scanner.run_append, preamble]
  rw [blocks]
  by_cases none : (cut given).2 = []
  · rw [none]
    exact congrArg (fun log => Except.ok (Registry.ofLog log)) (List.append_nil _).symm
  · exact run_blocks initial _ none (cut_blocks given) _ _ _

private theorem mapError_shift_zero {α : Type} (result : Except SourceError α) :
    result.mapError (·.shift 0) = result := by
  cases result with
  | ok value => rfl
  | error error =>
    cases error with
    | literal line command cause => rfl
    | field line command cause => rfl

theorem Block.alone_eq {block : Block} (valid : IsBlock block.lines) (initial : String) :
    block.alone initial = (sessionOf block.lines).map fun session =>
      .ofLog (.entry initial (block.record session) :: markers block.lines) := by
  have fresh := run_block valid [] initial .idle 0
  rw [mapError_shift_zero] at fresh
  obtain ⟨before, given, isLast⟩ := block
  refine (congrArg (Except.map _) fresh).trans ?_
  dsimp only
  cases sessionOf given with
  | error error => rfl
  | ok session =>
    cases isLast with
    | false => rfl
    | true => exact congrArg Except.ok (session.finish_scanner [] (markers given) initial _)

private theorem commands_ofLog_entry (group : String) (command : Command) (names : List String) :
    (Registry.ofLog (.entry group command :: names.map .marker)).groups.flatMap (·.commands) =
      [command] := by
  have entries : Registry.placed (.entry group command :: names.map .marker) =
      [(group, command)] := by
    simp [Registry.placed, Mention.entry, Mention.marker]
  have here : Registry.commandsIn group [(group, command)] = [command] := by
    simp [Registry.commandsIn]
  have elsewhere : ∀ other ∈ ((names.filter fun name => !name == group).eraseDups),
      Registry.commandsIn other [(group, command)] = [] := by
    intro other member
    rw [List.mem_eraseDups, List.mem_filter] at member
    have apart : group ≠ other := by
      rintro rfl
      simp at member
    simp [Registry.commandsIn, apart]
  have named : Registry.namesOf (.entry group command :: names.map .marker) = group :: names := by
    simp [Registry.namesOf, Mention.entry, Mention.marker, Function.comp_def]
  rw [Registry.ofLog, Registry.compose, entries, named, List.eraseDups_cons, List.map_cons,
    List.flatMap_cons, here, List.flatMap_map]
  exact congrArg (command :: ·) (List.flatMap_eq_nil_iff.2 elsewhere)

private theorem Block.gives_record {block : Block} (valid : IsBlock block.lines) (initial : String)
    {session : Session} (scanned : sessionOf block.lines = .ok session) :
    block.Gives initial (block.record session) := by
  have found := Block.alone_eq valid initial
  rw [scanned] at found
  exact ⟨_, found, commands_ofLog_entry initial _ (markerNames block.lines)⟩

private theorem Block.alone_eq_ok {block : Block} (valid : IsBlock block.lines) {initial : String}
    {registry : Registry} (scanned : block.alone initial = .ok registry) :
    ∃ session, sessionOf block.lines = .ok session := by
  rw [Block.alone_eq valid] at scanned
  cases found : sessionOf block.lines with
  | error error =>
    rw [found] at scanned
    cases scanned
  | ok session => exact ⟨session, rfl⟩

private theorem Block.alone_eq_error {block : Block} (valid : IsBlock block.lines)
    {initial : String}
    {error : SourceError} (scanned : block.alone initial = .error error) :
    sessionOf block.lines = .error error := by
  rw [Block.alone_eq valid] at scanned
  cases found : sessionOf block.lines with
  | error other =>
    rw [found] at scanned
    cases scanned
    rfl
  | ok session =>
    rw [found] at scanned
    cases scanned

private theorem isBlock_of_mem_blocksAfter {given : List (List (List Char))}
    (valid : ∀ block ∈ given, IsBlock block) (before : List (List Char)) :
    ∀ block ∈ blocksAfter before given, IsBlock block.lines := by
  induction given generalizing before with
  | nil => simp [blocksAfter]
  | cons block later ih =>
    rw [List.forall_mem_cons] at valid
    rw [blocksAfter, List.forall_mem_cons]
    exact ⟨valid.1, ih valid.2 _⟩

theorem isBlock_of_mem_blocks (given : List (List Char)) :
    ∀ block ∈ blocks given, IsBlock block.lines :=
  isBlock_of_mem_blocksAfter (cut_blocks given) _

/-- If no block fails, each adds its record and its group markers. -/
theorem mapM_mentions {initial : String} {given : List Block}
    (valid : ∀ block ∈ given, IsBlock block.lines)
    (succeeds : ∀ block ∈ given, ∃ registry, block.alone initial = .ok registry) :
    ∃ records, List.Forall₂ (Block.Gives initial) given records ∧
      given.mapM (Block.mentions initial) =
        .ok (List.zipWith (fun block record =>
          .entry (block.group initial) record :: markers block.lines) given records) := by
  induction given with
  | nil => exact ⟨[], .nil, rfl⟩
  | cons block later ih =>
    rw [List.forall_mem_cons] at valid succeeds
    obtain ⟨records, gives, added⟩ := ih valid.2 succeeds.2
    obtain ⟨registry, scanned⟩ := succeeds.1
    obtain ⟨session, scanned⟩ := Block.alone_eq_ok valid.1 scanned
    refine ⟨block.record session :: records,
      .cons (Block.gives_record valid.1 initial scanned) gives, ?_⟩
    rw [List.mapM_cons, added, Block.mentions, scanned]
    rfl

theorem placed_markers (given : List (List Char)) : Registry.placed (markers given) = [] := by
  simp [Registry.placed, markers, Mention.marker]

theorem namesOf_markers (given : List (List Char)) :
    Registry.namesOf (markers given) = markerNames given := by
  simp [Registry.namesOf, markers, Mention.marker, Function.comp_def]

private theorem placed_mentions {initial : String} {given : List Block} {records : List Command}
    (gives : List.Forall₂ (Block.Gives initial) given records) :
    Registry.placed (List.zipWith (fun block record =>
        .entry (block.group initial) record :: markers block.lines) given records).flatten =
      (given.map (·.group initial)).zip records := by
  induction gives with
  | nil => rfl
  | cons _ _ ih =>
    rw [List.zipWith_cons_cons, List.flatten_cons, Registry.placed_append, Registry.placed_entry,
      placed_markers, ih]
    rfl

private theorem namesOf_mentions {initial : String} {given : List Block} {records : List Command}
    (gives : List.Forall₂ (Block.Gives initial) given records) :
    Registry.namesOf (List.zipWith (fun block record =>
        .entry (block.group initial) record :: markers block.lines) given records).flatten =
      given.flatMap fun block => block.group initial :: markerNames block.lines := by
  induction gives with
  | nil => rfl
  | cons _ _ ih =>
    rw [List.zipWith_cons_cons, List.flatten_cons, Registry.namesOf_append, Registry.namesOf_cons,
      namesOf_markers, ih]
    rfl

theorem groupsNamed_append (initial : String) (before first second : List (List Char)) :
    groupsNamed initial before (first ++ second) =
      groupsNamed initial before first ++ groupsNamed initial (before ++ first) second := by
  induction first generalizing before with
  | nil => simp [groupsNamed]
  | cons line first ih => simp [groupsNamed, ih]

theorem groupsNamed_inside (initial : String) (before : List (List Char))
    {given : List (List Char)} (inside : ∀ line ∈ given, Line.command? line = none) :
    groupsNamed initial before given = markerNames given := by
  induction given generalizing before with
  | nil => rfl
  | cons line later ih =>
    rw [List.forall_mem_cons] at inside
    rw [groupsNamed, ih _ inside.2]
    cases marks : Line.group? line with
    | some name => rw [markerNames_cons_marker marks]; rfl
    | none => rw [markerNames_cons_other marks, inside.1]; rfl

private theorem groupsNamed_block (initial : String) (before : List (List Char))
    {given : List (List Char)} (valid : IsBlock given) :
    groupsNamed initial before given = groupAfter initial before :: markerNames given := by
  cases valid with
  | mk starts inside =>
    have other := Line.group?_of_command? starts
    rw [groupsNamed, other, starts, groupsNamed_inside _ _ inside, markerNames_cons_other other]
    rfl

private theorem groupsNamed_blocks (initial : String) (before : List (List Char))
    {given : List (List (List Char))} (valid : ∀ block ∈ given, IsBlock block) :
    groupsNamed initial before given.flatten = (blocksAfter before given).flatMap fun block =>
      block.group initial :: markerNames block.lines := by
  induction given generalizing before with
  | nil => rfl
  | cons block later ih =>
    rw [List.forall_mem_cons] at valid
    rw [List.flatten_cons, groupsNamed_append, groupsNamed_block _ _ valid.1, ih _ valid.2,
      blocksAfter, List.flatMap_cons]
    rfl

private theorem groupsNamed_eq (initial : String) (given : List (List Char)) :
    groupsNamed initial [] given = markerNames (cut given).1 ++
      (blocks given).flatMap fun block => block.group initial :: markerNames block.lines := by
  conv_lhs => rw [← flatten_cut given]
  rw [groupsNamed_append, groupsNamed_inside _ _ (cut_preamble given),
    groupsNamed_blocks _ _ (cut_blocks given)]
  rfl

/-- Extraction is compositional. If no block of a source fails alone, the source is read; each
of its commands is the one that its block gives alone, and stands in the group that was named
last before it. If a block fails, and none before it does, the source fails with the error of
that block, further down by as many lines as stand before the block. -/
theorem ofSource_compositional (initial source : String) :
    ((∀ block ∈ blocks (lines source.toList), ∃ registry, block.alone initial = .ok registry) →
      ∃ records, List.Forall₂ (Block.Gives initial) (blocks (lines source.toList)) records ∧
        Registry.ofSource initial source =
          .ok (.compose (groupsNamed initial [] (lines source.toList))
            (((blocks (lines source.toList)).map (·.group initial)).zip records))) ∧
    ∀ earlier block later error, blocks (lines source.toList) = earlier ++ block :: later →
      (∀ other ∈ earlier, ∃ registry, other.alone initial = .ok registry) →
      block.alone initial = .error error →
      Registry.ofSource initial source = .error (error.shift block.before.length) := by
  constructor
  · intro succeeds
    obtain ⟨records, gives, added⟩ := mapM_mentions (isBlock_of_mem_blocks _) succeeds
    refine ⟨records, gives, ?_⟩
    rw [ofSource_eq_mapM, added, groupsNamed_eq]
    refine congrArg Except.ok ?_
    dsimp only
    rw [Registry.ofLog, Registry.namesOf_append, namesOf_markers, namesOf_mentions gives,
      Registry.placed_append, placed_markers, placed_mentions gives]
    rfl
  · intro earlier block later error split succeeds fails
    have valid := isBlock_of_mem_blocks (lines source.toList)
    rw [split, List.forall_mem_append, List.forall_mem_cons] at valid
    obtain ⟨records, -, added⟩ := mapM_mentions valid.1 succeeds
    have failed := Block.alone_eq_error valid.2.1 fails
    rw [ofSource_eq_mapM, split, List.mapM_append, added, List.mapM_cons, Block.mentions, failed]
    rfl

theorem exists_ok_of_isSome {α : Type} {result : Except SourceError α}
    (succeeds : result.toOption.isSome = true) : ∃ value, result = .ok value := by
  cases result with
  | error error => cases succeeds
  | ok value => exact ⟨value, rfl⟩

/-- Two commands, the second in a group that is named between them. -/
def plainSource : String :=
  "SlashCommandParser.addCommandObject(SlashCommand.fromProps(\x7bname:'a',\n// GROUP: G\n" ++
  "SlashCommandParser.addCommandObject(SlashCommand.fromProps(\x7bname:'b',\n"

/-- The same commands, the second with an argument that is no literal. -/
def faultySource : String := plainSource ++ "SlashCommandArgument.fromProps(\x7b]\x7d),"

theorem ofSource_compositional_samples :
    (∃ records, List.Forall₂ (Block.Gives "Other") (blocks (lines plainSource.toList)) records ∧
      Registry.ofSource "Other" plainSource =
        .ok (.compose ["Other", "G", "G"] (["Other", "G"].zip records))) ∧
    Registry.ofSource "Other" faultySource =
      .error (.literal 4 "b" ⟨.expectedKey ']', 1⟩) := by
  constructor
  · have shape : groupsNamed "Other" [] (lines plainSource.toList) = ["Other", "G", "G"] ∧
        (blocks (lines plainSource.toList)).map (·.group "Other") = ["Other", "G"] ∧
        ∀ block ∈ blocks (lines plainSource.toList),
          (block.alone "Other").toOption.isSome = true := by
      decide +kernel
    obtain ⟨names, groups, succeeds⟩ := shape
    rw [← names, ← groups]
    apply (ofSource_compositional "Other" plainSource).1
    exact fun block member => exists_ok_of_isSome (succeeds block member)
  · obtain ⟨first, second, both, succeeds, fails, count⟩ : ∃ first second : Block,
        blocks (lines faultySource.toList) = [first] ++ second :: [] ∧
        (first.alone "Other").toOption.isSome = true ∧
        second.alone "Other" = .error (.literal 2 "b" ⟨.expectedKey ']', 1⟩) ∧
        second.before.length = 2 := by
      refine ⟨⟨[], (lines faultySource.toList).take 2, false⟩,
        ⟨(lines faultySource.toList).take 2, (lines faultySource.toList).drop 2, true⟩, ?_⟩
      decide +kernel
    have failed := (ofSource_compositional "Other" faultySource).2 [first] second [] _ both
      (List.forall_mem_singleton.2 (exists_ok_of_isSome succeeds)) fails
    rw [count] at failed
    exact failed

end CommandReference
