import CommandReference.Proofs.Source.Finality
import CommandReference.Proofs.Source.Spread

/-! Lines at fault. Only a line that completes the declaration of an argument can be at fault, and
only by the text that has been collected for it. Such a line gives up the command at hand and
leaves no other trace, and a scan stops at the first one. -/
namespace CommandReference
open Text

namespace Line

private theorem inner_of_closesArgument? {line : List Char} {size : Nat}
    (closes : closesArgument? line = some size) : Inner line := by
  obtain ⟨rest, begins, -⟩ := Option.bind_eq_some_iff.1 closes
  exact inner_of_trimStart (after?_eq_some_iff.1 begins) rfl rfl

theorem exists_of_construction? {constructor : String} {line body : List Char} {size : Nat}
    (begins : construction? constructor line = some (size, body)) :
    ∃ indent, line = indent ++ (constructor.toList ++ body) ∧ Literal.Blanks indent ∧
      size = byteSize indent ∧ body.head? = some '{' ∧ '\n' ∉ body := by
  obtain ⟨rest, named, begins⟩ := Option.bind_eq_some_iff.1 begins
  split at begins
  · next shown =>
    cases begins
    have text : trimStart line = constructor.toList ++ body := after?_eq_some_iff.1 named
    refine ⟨line.takeWhile isBlank, ?_, fun c member => List.mem_takeWhile_imp member, rfl, ?_, ?_⟩
    · rw [← text]
      exact List.takeWhile_append_dropWhile.symm
    · obtain ⟨more, rfl⟩ := startsWith_iff.1 shown.1
      rfl
    · intro broken
      simpa using List.all_eq_true.1 shown.2 _ broken
  · cases begins

theorem exists_of_argumentStart? {line body : List Char} {kind : ArgumentKind} {size : Nat}
    (begins : Scanner.argumentStart? line = some (kind, size, body)) :
    ∃ indent, line = indent ++ (kind.opening.toList ++ body) ∧ Literal.Blanks indent ∧
      size = byteSize indent ∧ body.head? = some '{' ∧ '\n' ∉ body := by
  rcases Option.or_eq_some_iff.1 begins with named | ⟨-, unnamed⟩
  · obtain ⟨found, begins, same⟩ := Option.map_eq_some_iff.1 named
    cases same
    exact exists_of_construction? begins
  · obtain ⟨found, begins, same⟩ := Option.map_eq_some_iff.1 unnamed
    cases same
    exact exists_of_construction? begins

end Line

def SourceError.line : SourceError → Nat
  | literal line _ _ => line
  | field line _ _ => line

def SourceError.command : SourceError → String
  | literal _ command _ => command
  | field _ command _ => command

/-- The error that the text of a declaration gives: it is no literal, or the literal has the wrong
shape. -/
inductive Fault (number : Nat) (name : String) (text : List Char) : SourceError → Prop where
  | literal {cause : Literal.Error} : Literal.parse (String.ofList text) = .error cause →
      Fault number name text (.literal number name cause)
  | field {literal : Literal} {cause : FieldError} :
      Literal.parse (String.ofList text) = .ok literal → Argument.ofLiteral literal = .error cause →
      Fault number name text (.field number name cause)

namespace Fault

variable {number : Nat} {name : String} {text : List Char}

theorem line_eq {error : SourceError} (fault : Fault number name text error) :
    error.line = number := by
  cases fault with
  | literal rejected => rfl
  | field reads rejected => rfl

private theorem command_eq {error : SourceError} (fault : Fault number name text error) :
    error.command = name := by
  cases fault with
  | literal rejected => rfl
  | field reads rejected => rfl

private theorem literal_iff {cause : Literal.Error} :
    Fault number name text (.literal number name cause) ↔
      Literal.parse (String.ofList text) = .error cause := by
  constructor
  · intro fault
    cases fault with
    | literal rejected => exact rejected
  · exact .literal

private theorem field_iff {cause : FieldError} :
    Fault number name text (.field number name cause) ↔
      ∃ literal, Literal.parse (String.ofList text) = .ok literal ∧
        Argument.ofLiteral literal = .error cause := by
  constructor
  · intro fault
    cases fault with
    | field reads rejected => exact ⟨_, reads, rejected⟩
  · rintro ⟨literal, reads, rejected⟩
    exact .field reads rejected

end Fault

namespace Scanner

/-- A line completes a declaration: it holds all of it, or it ends the one that is being read. -/
inductive Completes (scanner : Scanner) (line : List Char) :
    CommandRef → ArgumentKind → List Char → Prop where
  | alone {ref : CommandRef} {kind : ArgumentKind} {indent : Nat} {body block : List Char} :
      scanner.state = .opened ref → argumentStart? line = some (kind, indent, body) →
      Literal.balancedBlock? body = some block → Completes scanner line ref kind block
  | ends {ref : CommandRef} {kind : ArgumentKind} {indent depth : Nat} {raw : List Char} :
      scanner.state = .inArgument ref kind indent raw → Line.closesArgument? line = some depth →
      depth ≤ indent → Completes scanner line ref kind (raw ++ ['}'])

variable {scanner : Scanner} {number : Nat} {line : List Char} {error : SourceError}

section Completed
variable {ref : CommandRef} {kind : ArgumentKind} {text : List Char}

theorem Completes.held (completes : scanner.Completes line ref kind text) :
    scanner.state.held? = some ref := by
  cases completes with
  | alone opened begins balanced =>
    rw [opened]
    rfl
  | ends reading closes near =>
    rw [reading]
    rfl

theorem Completes.inner (completes : scanner.Completes line ref kind text) : Line.Inner line := by
  cases completes with
  | alone opened begins balanced =>
    obtain ⟨indent, rfl, white, -⟩ := Line.exists_of_argumentStart? begins
    exact Line.inner_opening white kind _
  | ends reading closes near => exact Line.inner_of_closesArgument? closes

private theorem declare_eq_error_iff :
    scanner.past (declare number ref kind text) = .error error ↔
      Fault number (scanner.nameAt ref) text error := by
  rw [past_declare, argumentOf]
  constructor
  · intro failed
    cases reads : Literal.parse (String.ofList text) with
    | error cause =>
      rw [reads] at failed
      cases failed
      exact .literal reads
    | ok literal =>
      cases rejected : Argument.ofLiteral literal with
      | error cause =>
        rw [reads] at failed
        dsimp only [Except.mapError, Except.bind] at failed
        rw [rejected] at failed
        cases failed
        exact .field reads rejected
      | ok argument =>
        rw [reads] at failed
        dsimp only [Except.mapError, Except.bind] at failed
        rw [rejected] at failed
        cases failed
  · intro fault
    cases fault with
    | literal rejected =>
      rw [rejected]
      rfl
    | field reads rejected =>
      rw [reads]
      dsimp only [Except.mapError, Except.bind]
      rw [rejected]
      rfl

private theorem advanced_of_completes (completes : scanner.Completes line ref kind text)
    (number : Nat) :
    scanner.advanced number line = scanner.past (declare number ref kind text) := by
  have inner := completes.inner
  cases completes with
  | alone opened begins balanced =>
    obtain ⟨indent, rfl, white, -, brace, oneLine⟩ := Line.exists_of_argumentStart? begins
    rw [advanced_opening opened white kind brace oneLine, balanced]
    rfl
  | ends reading closes near =>
    rw [advanced_of_inner inner, reading, advanceState, advanceArgument, if_pos]
    rw [closes]
    exact decide_eq_true near

end Completed

/-- All that a line can do while a command is open. -/
theorem advanceOpened_cases (scanner : Scanner) (number : Nat) (line : List Char)
    (ref : CommandRef) :
    (∃ help, scanner.past (advanceOpened number line ref) =
      .ok ((scanner.setHelp ref help).enter .idle)) ∨
    scanner.past (advanceOpened number line ref) = .ok (scanner.enter (.inHelp ref [])) ∨
    scanner.past (advanceOpened number line ref) = .ok (scanner.enter (.opened ref)) ∨
    ∃ kind indent body, argumentStart? line = some (kind, indent, body) ∧
      ((∃ block, Literal.balancedBlock? body = some block ∧
        scanner.past (advanceOpened number line ref) =
          scanner.past (declare number ref kind block)) ∨
      scanner.past (advanceOpened number line ref) =
        .ok (scanner.enter (.inArgument ref kind indent (body ++ ['\n'])))) := by
  unfold advanceOpened
  cases Line.help? line with
  | some text => exact .inl ⟨_, rfl⟩
  | none =>
    right
    by_cases opens : Line.opensHelp line = true
    · rw [if_pos opens]
      exact .inl rfl
    · rw [if_neg opens]
      right
      cases argumentStart? line with
      | none => exact .inl rfl
      | some found =>
        obtain ⟨kind, indent, body⟩ := found
        refine .inr ⟨kind, indent, body, rfl, ?_⟩
        dsimp only
        cases Literal.balancedBlock? body with
        | some block => exact .inl ⟨block, rfl, rfl⟩
        | none => exact .inr rfl

theorem exists_completes (failed : scanner.advanced number line = .error error) :
    ∃ ref kind text, scanner.Completes line ref kind text := by
  cases marks : Line.group? line with
  | some name =>
    rw [advanced_of_marker marks] at failed
    cases failed
  | none =>
    cases starts : Line.command? line with
    | some name =>
      rw [advanced_of_command marks starts] at failed
      cases failed
    | none =>
      rw [advanced_of_inner ⟨marks, starts⟩] at failed
      -- A fault needs a command that is open or a declaration that is being read.
      cases state : scanner.state with
      | idle =>
        rw [state] at failed
        cases failed
      | inHelp ref text =>
        rw [state, advanceState, advanceHelp] at failed
        split at failed
        · cases failed
        · cases failed
      | opened ref =>
        rw [state] at failed
        rcases advanceOpened_cases scanner number line ref with
          ⟨help, same⟩ | same | same | ⟨kind, indent, body, begins, ⟨block, balanced, -⟩ | same⟩
        · cases same.symm.trans failed
        · cases same.symm.trans failed
        · cases same.symm.trans failed
        · exact ⟨ref, kind, block, .alone state begins balanced⟩
        · cases same.symm.trans failed
      | inArgument ref kind indent raw =>
        rw [state, advanceState, advanceArgument] at failed
        split at failed
        · rename_i closes
          obtain ⟨depth, found, near⟩ := (Option.any_eq_true _ _).1 closes
          exact ⟨ref, kind, _, .ends state found (of_decide_eq_true near)⟩
        · cases failed

theorem snd_feed_eq_some_iff :
    (scanner.feed number line).2 = some error ↔ scanner.advanced number line = .error error := by
  cases done : scanner.advanced number line with
  | ok next =>
    rw [feed_of_ok done]
    exact ⟨nofun, nofun⟩
  | error cause =>
    rw [feed_of_error done]
    simp

theorem snd_feed_of_completes {ref : CommandRef} {kind : ArgumentKind} {text : List Char}
    (completes : scanner.Completes line ref kind text) :
    (scanner.feed number line).2 = some error ↔
      Fault number (scanner.nameAt ref) text error := by
  rw [snd_feed_eq_some_iff, advanced_of_completes completes, declare_eq_error_iff]

/-- A line is at fault only if it completes a declaration whose text is at fault. -/
theorem exists_fault (failed : (scanner.feed number line).2 = some error) :
    ∃ ref kind text, scanner.Completes line ref kind text ∧
      Fault number (scanner.nameAt ref) text error := by
  obtain ⟨ref, kind, text, completes⟩ := exists_completes (snd_feed_eq_some_iff.1 failed)
  exact ⟨ref, kind, text, completes, (snd_feed_of_completes completes).1 failed⟩

/-- A line at fault is taken in as if no command were open. -/
theorem feed_of_fault (failed : scanner.advanced number line = .error error) :
    scanner.feed number line = (⟨scanner.registry, scanner.group, .idle⟩, some error) ∧
      feed ⟨scanner.registry, scanner.group, .idle⟩ number line =
        (⟨scanner.registry, scanner.group, .idle⟩, none) := by
  obtain ⟨ref, kind, text, completes⟩ := exists_completes failed
  constructor
  · exact feed_of_error failed
  · apply feed_of_ok
    rw [advanced_of_inner completes.inner]
    rfl

/-- The text of a declaration is collected from the line that began it and the lines behind it. -/
def CollectedFrom (past : List (List Char)) (kind : ArgumentKind) (indent : Nat) (raw : List Char) :
    Prop :=
  ∃ before first between body, past = before ++ first :: between ∧
    argumentStart? first = some (kind, indent, body) ∧
    raw = body ++ ['\n'] ++ Line.collected between

section Reading
variable {past : List (List Char)} {ref : CommandRef} {kind : ArgumentKind} {indent : Nat}
  {raw : List Char}

theorem CollectedFrom.more (collected : CollectedFrom past kind indent raw) (line : List Char) :
    CollectedFrom (past ++ [line]) kind indent (raw ++ Line.collected [line]) := by
  obtain ⟨before, first, between, body, rfl, begins, rfl⟩ := collected
  refine ⟨before, first, between ++ [line], body, ?_, begins, ?_⟩
  · rw [List.append_assoc, List.cons_append]
  · rw [Line.collected_append, List.append_assoc]

theorem state_declare_ne (scanner : Scanner) (number : Nat) (home : CommandRef)
    (other : ArgumentKind) (text : List Char) :
    ((scanner.past (declare number home other text)).toOption.getD (scanner.enter .idle)).state ≠
      .inArgument ref kind indent raw := by
  rcases scanner.declare_cases number home other text with ⟨cause, failed⟩ | ⟨argument, done⟩
  · rw [failed]
    exact nofun
  · rw [done]
    exact nofun

/-- An open command goes over to a declaration only on the line that begins it. -/
theorem begins_of_advanceOpened {home : CommandRef}
    (reading : ((scanner.past (advanceOpened number line home)).toOption.getD
      (scanner.enter .idle)).state = .inArgument ref kind indent raw) :
    ∃ body, argumentStart? line = some (kind, indent, body) ∧ raw = body ++ ['\n'] := by
  rcases advanceOpened_cases scanner number line home with
    ⟨help, same⟩ | same | same | ⟨other, size, body, begins, ⟨block, -, same⟩ | same⟩
  · rw [same] at reading
    cases reading
  · rw [same] at reading
    cases reading
  · rw [same] at reading
    cases reading
  · rw [same] at reading
    exact absurd reading (state_declare_ne _ _ _ _ _)
  · rw [same] at reading
    cases reading
    exact ⟨body, begins, rfl⟩

theorem CollectedFrom.feed
    (earlier : ∀ ref kind indent raw, scanner.state = .inArgument ref kind indent raw →
      CollectedFrom past kind indent raw)
    (reading : (scanner.feed number line).1.state = .inArgument ref kind indent raw) :
    CollectedFrom (past ++ [line]) kind indent raw := by
  cases marks : Line.group? line with
  | some name =>
    rw [feed_of_marker marks] at reading
    have same := (earlier ref kind indent raw reading).more line
    rw [Line.collected_marker marks, List.append_nil] at same
    exact same
  | none =>
    cases starts : Line.command? line with
    | some name =>
      rw [feed_of_command starts] at reading
      cases reading
    | none =>
      rw [fst_feed, advanced_of_inner ⟨marks, starts⟩] at reading
      -- A declaration is read on after this line if the line begins it or does not end it.
      cases state : scanner.state with
      | idle =>
        rw [state] at reading
        cases reading
      | opened home =>
        rw [state] at reading
        obtain ⟨body, begins, rfl⟩ := begins_of_advanceOpened reading
        exact ⟨past, line, [], body, rfl, begins, (List.append_nil _).symm⟩
      | inHelp home text =>
        rw [state, advanceState, advanceHelp] at reading
        split at reading
        · cases reading
        · cases reading
      | inArgument home other size text =>
        rw [state, advanceState, advanceArgument] at reading
        split at reading
        · exact absurd reading (state_declare_ne _ _ _ _ _)
        · cases reading
          have longer := (earlier _ _ _ text state).more line
          rw [Line.collected_other marks, ← List.append_assoc] at longer
          exact longer

end Reading

private theorem collectedFrom_of_reached {group : String} {given : List (Nat × List Char)}
    (reached : (start group).feedAll given = scanner) (ref : CommandRef) (kind : ArgumentKind)
    (indent : Nat) (raw : List Char) (reading : scanner.state = .inArgument ref kind indent raw) :
    CollectedFrom (given.map (·.2)) kind indent raw := by
  induction given using List.reverseRecOn generalizing scanner ref kind indent raw with
  | nil =>
    rw [← reached] at reading
    cases reading
  | append_singleton given item ih =>
    rw [feedAll_append] at reached
    rw [← reached] at reading
    rw [List.map_append]
    exact CollectedFrom.feed (ih rfl) reading

private theorem run_eq_feedLines (number : Nat) (given : List (List Char)) (scanner : Scanner) :
    scanner.run number given =
      (scanner.feedLines number given).2.head?.elim (.ok (scanner.feedLines number given).1)
        .error := by
  induction given generalizing scanner number with
  | nil => rfl
  | cons line given ih =>
    rw [run_cons, feedLines]
    cases advanced : scanner.advanced number line with
    | error cause =>
      have fed := (feed_of_fault advanced).1
      rw [fed]
      rfl
    | ok next =>
      have fed : scanner.feed number line = (next, none) := feed_of_ok advanced
      rw [fed]
      exact ih (number + 1) next

private theorem snd_feedLines_append (number : Nat) (before after : List (List Char))
    (scanner : Scanner) :
    (scanner.feedLines number (before ++ after)).2 = (scanner.feedLines number before).2 ++
      ((scanner.feedLines number before).1.feedLines (number + before.length) after).2 := by
  induction before generalizing scanner number with
  | nil => rfl
  | cons line before ih =>
    have rest := ih (number + 1) (scanner.feed number line).1
    rw [Nat.add_assoc, Nat.add_comm 1] at rest
    rw [List.cons_append, feedLines, feedLines, List.length_cons, rest, List.append_assoc]

/-- The first of the errors comes from the first line at fault. -/
theorem head?_feedLines_iff {given : List (List Char)} :
    (scanner.feedLines number given).2.head? = some error ↔
      ∃ before line later, given = before ++ line :: later ∧
        (scanner.feedLines number before).2 = [] ∧
        ((scanner.feedLines number before).1.feed (number + before.length) line).2 = some error := by
  constructor
  · intro failed
    induction given generalizing scanner number with
    | nil => cases failed
    | cons line given ih =>
      rw [feedLines] at failed
      cases fed : (scanner.feed number line).2 with
      | some cause =>
        rw [fed] at failed
        cases failed
        exact ⟨[], line, given, rfl, rfl, fed⟩
      | none =>
        rw [fed] at failed
        obtain ⟨before, later, rest, shape, clean, fault⟩ := ih failed
        refine ⟨line :: before, later, rest, by rw [shape, List.cons_append], ?_, ?_⟩
        · rw [feedLines, fed]
          exact clean
        · rw [Nat.add_assoc, Nat.add_comm 1] at fault
          exact fault
  · rintro ⟨before, line, later, rfl, clean, fault⟩
    rw [snd_feedLines_append, clean, List.nil_append, feedLines, fault]
    rfl

theorem scan_eq_error_iff {source : String} :
    scanner.scan source = .error error ↔
      (scanner.feedLines 1 (lines source.toList)).2.head? = some error := by
  rw [scan_eq_run, run_eq_feedLines]
  cases (scanner.feedLines 1 (lines source.toList)).2.head? with
  | none => exact ⟨nofun, nofun⟩
  | some cause => simp [Except.map]

theorem exists_started {group : String} {given : List (Nat × List Char)}
    (reached : (start group).feedAll given = scanner) {ref : CommandRef}
    (held : scanner.state.held? = some ref) :
    ∃ earlier home, startsIn group (given.map (·.2)) = earlier ++ [(home, scanner.nameAt ref)] := by
  obtain ⟨earlier, home, name, command, starts, -, found, called⟩ :=
    (tracks_of_reached reached).resolves held
  refine ⟨earlier, home, ?_⟩
  rw [nameAt, found, Option.map_some, Option.getD_some, called]
  exact starts

/-- A line at fault leaves no trace. Whatever lines have been fed, the registry and the group stay
as they are, and the scan can go on as if the line had come when no command was open. The line
completes a declaration of the command that was started last, and the error tells what is wrong
with the text that was collected for it. A scan fails exactly at the first such line. -/
theorem feed_fault_atomic {group : String} {given : List (Nat × List Char)}
    (reached : (start group).feedAll given = scanner) :
    (∀ number line error, (scanner.feed number line).2 = some error →
      (scanner.feed number line).1 = ⟨scanner.registry, scanner.group, .idle⟩ ∧
      error.line = number ∧
      (∃ earlier home, startsIn group (given.map (·.2)) = earlier ++ [(home, error.command)]) ∧
      Line.Inner line ∧
      (∃ ref kind text, scanner.Completes line ref kind text) ∧
      ∀ more, scanner.feedAll ((number, line) :: more) =
        feedAll ((number, line) :: more) ⟨scanner.registry, scanner.group, .idle⟩) ∧
    (∀ number line ref kind text, scanner.Completes line ref kind text →
      ∃ earlier home name, startsIn group (given.map (·.2)) = earlier ++ [(home, name)] ∧
        (∀ cause, (scanner.feed number line).2 = some (.literal number name cause) ↔
          Literal.parse (String.ofList text) = .error cause) ∧
        ∀ cause, (scanner.feed number line).2 = some (.field number name cause) ↔
          ∃ literal, Literal.parse (String.ofList text) = .ok literal ∧
            Argument.ofLiteral literal = .error cause) ∧
    (∀ ref kind indent raw, scanner.state = .inArgument ref kind indent raw →
      CollectedFrom (given.map (·.2)) kind indent raw) ∧
    ∀ source, ((∃ error, scanner.scan source = .error error) ↔
        (scanner.feedLines 1 (lines source.toList)).2 ≠ []) ∧
      ∀ error, scanner.scan source = .error error ↔
        ∃ before line later, lines source.toList = before ++ line :: later ∧
          (scanner.feedLines 1 before).2 = [] ∧
          ((scanner.feedLines 1 before).1.feed (before.length + 1) line).2 = some error ∧
          error.line = before.length + 1 := by
  refine ⟨?_, ?_, collectedFrom_of_reached reached, ?_⟩
  · intro number line error failed
    obtain ⟨ref, kind, text, completes, fault⟩ := exists_fault failed
    obtain ⟨dropped, ignored⟩ := feed_of_fault (snd_feed_eq_some_iff.1 failed)
    refine ⟨by rw [dropped], fault.line_eq, ?_, completes.inner, ⟨ref, kind, text, completes⟩, ?_⟩
    · rw [fault.command_eq]
      exact exists_started reached completes.held
    · intro more
      rw [feedAll_cons, feedAll_cons, dropped, ignored]
  · intro number line ref kind text completes
    obtain ⟨earlier, home, starts⟩ := exists_started reached completes.held
    refine ⟨earlier, home, _, starts, ?_, ?_⟩
    · intro cause
      rw [snd_feed_of_completes completes, Fault.literal_iff]
    · intro cause
      rw [snd_feed_of_completes completes, Fault.field_iff]
  · intro source
    constructor
    · simp only [scan_eq_error_iff, ← Option.isSome_iff_exists, List.isSome_head?]
    · intro error
      rw [scan_eq_error_iff, head?_feedLines_iff]
      constructor
      · rintro ⟨before, line, later, shape, clean, failed⟩
        rw [Nat.add_comm] at failed
        obtain ⟨ref, kind, text, -, fault⟩ := exists_fault failed
        exact ⟨before, line, later, shape, clean, failed, fault.line_eq⟩
      · rintro ⟨before, line, later, shape, clean, failed, -⟩
        rw [Nat.add_comm] at failed
        exact ⟨before, line, later, shape, clean, failed⟩

/-- A declaration without a colon behind its key, whose last line is still to come. -/
def unfinishedLines : List (Nat × List Char) :=
  [(1, "SlashCommandParser.addCommandObject(SlashCommand.fromProps(\x7bname:'a',".toList),
   (2, " SlashCommandArgument.fromProps(\x7bb".toList), (3, "// GROUP: G".toList)]

def unfinished : Scanner := (start "Other").feedAll unfinishedLines

theorem feed_fault_atomic_unfinished :
    (unfinished.feed 4 "\x7d),".toList).2 =
        some (.literal 4 "a" ⟨.expected ':' (some '}'), 3⟩) ∧
      (unfinished.feed 4 "\x7d),".toList).1 = ⟨unfinished.registry, "G", .idle⟩ ∧
      CollectedFrom (unfinishedLines.map (·.2)) .unnamed 1 "\x7bb\n".toList ∧
      unfinished.scan "\x7d)," = .error (.literal 1 "a" ⟨.expected ':' (some '}'), 3⟩) := by
  have reached : (start "Other").feedAll unfinishedLines = unfinished := rfl
  obtain ⟨atomic, -, collects, scans⟩ := feed_fault_atomic reached
  have failed : (unfinished.feed 4 "\x7d),".toList).2 =
      some (.literal 4 "a" ⟨.expected ':' (some '}'), 3⟩) := by
    decide +kernel
  have reading : unfinished.state = .inArgument ⟨"Other", 0⟩ .unnamed 1 "\x7bb\n".toList := by
    decide +kernel
  have group : unfinished.group = "G" := by decide +kernel
  refine ⟨failed, ?_, collects _ _ _ _ reading, ?_⟩
  · rw [← group]
    exact (atomic _ _ _ failed).1
  · refine ((scans "\x7d),").2 _).2 ⟨[], "\x7d),".toList, [], by decide, rfl, ?_, rfl⟩
    decide +kernel

end Scanner

end CommandReference
