import CommandReference.Proofs.Command.Log
import CommandReference.Proofs.Source.Outcome

/-! The scan of the lines of one command. What a scan does between two command starts is
a matter of that command alone: the machine below holds nothing but the command and what
is being collected for it, and a scanner with any registry around it does the same. -/
namespace CommandReference
open Text

/-- What is being collected for the command at hand. -/
inductive Phase where
  | idle
  | opened
  | inHelp (text : List Char)
  | inArgument (kind : ArgumentKind) (indent : Nat) (raw : List Char)

def Phase.scanState (ref : CommandRef) : Phase → ScanState
  | idle => .idle
  | opened => .opened ref
  | inHelp text => .inHelp ref text
  | inArgument kind indent raw => .inArgument ref kind indent raw

/-- The scan of one command. -/
structure Session where
  command : Command
  phase : Phase

namespace Session

def start (name : List Char) : Session := ⟨.ofName (String.ofList name), .opened⟩

def describe (help : String) (session : Session) : Session :=
  ⟨{ session.command with help := help }, .idle⟩

def declare (number : Nat) (kind : ArgumentKind) (raw : List Char) (session : Session) :
    Except SourceError Session :=
  (Scanner.argumentOf number session.command.name raw).map fun argument =>
    ⟨session.command.addArgument kind argument, .opened⟩

def advanceOpened (number : Nat) (line : List Char) (session : Session) :
    Except SourceError Session :=
  match Line.help? line with
  | some text => return session.describe (String.ofList text)
  | none =>
    if Line.opensHelp line then return { session with phase := .inHelp [] }
    else
      match Scanner.argumentStart? line with
      | none => return { session with phase := .opened }
      | some (kind, indent, body) =>
        match Literal.balancedBlock? body with
        | some block => session.declare number kind block
        | none => return { session with phase := .inArgument kind indent (body ++ ['\n']) }

def advanceHelp (line text : List Char) (session : Session) : Session :=
  match Line.closesHelp? line with
  | some last => session.describe (Help.normalize (String.ofList (text ++ last)))
  | none => { session with phase := .inHelp (text ++ line ++ ['\n']) }

def advanceArgument (number : Nat) (line : List Char) (kind : ArgumentKind) (indent : Nat)
    (raw : List Char) (session : Session) : Except SourceError Session :=
  if (Line.closesArgument? line).any (· ≤ indent) then session.declare number kind (raw ++ ['}'])
  else return { session with phase := .inArgument kind indent (raw ++ line ++ ['\n']) }

/-- Takes in a line that starts no command. A group marker is passed over. -/
def advance (session : Session) (number : Nat) (line : List Char) : Except SourceError Session :=
  match Line.group? line with
  | some _ => return session
  | none =>
    match session.phase with
    | .idle => return session
    | .opened => session.advanceOpened number line
    | .inHelp text => return session.advanceHelp line text
    | .inArgument kind indent raw => session.advanceArgument number line kind indent raw

def run (number : Nat) (given : List (List Char)) (session : Session) :
    Except SourceError Session :=
  (given.zipIdx number).foldlM (fun current (line, number) => current.advance number line) session

/-- The command when no further line follows: a help text that is still open is closed. -/
def finish (session : Session) : Command :=
  match session.phase with
  | .inHelp text => { session.command with help := Help.normalize (String.ofList text) }
  | _ => session.command

/-- A scanner at work on the command, which was mentioned in the group `home` behind a log. -/
def scanner (log later : List Mention) (home group : String) (session : Session) : Scanner :=
  ⟨.ofLog (log ++ .entry home session.command :: later), group,
    session.phase.scanState (Registry.refAfter log home)⟩

end Session

/-- The groups that are named by markers, in order. -/
def markerNames (given : List (List Char)) : List String :=
  given.filterMap fun line => (Line.group? line).map String.ofList

/-- The group that a command belongs to that starts behind these lines. -/
def groupAfter (group : String) (before : List (List Char)) : String :=
  (markerNames before).getLast?.getD group

def markers (given : List (List Char)) : List Mention := (markerNames given).map .marker

theorem markerNames_append (before after : List (List Char)) :
    markerNames (before ++ after) = markerNames before ++ markerNames after :=
  List.filterMap_append

private theorem markers_append (before after : List (List Char)) :
    markers (before ++ after) = markers before ++ markers after := by
  rw [markers, markerNames_append, List.map_append]
  rfl

theorem groupAfter_append (group : String) (before after : List (List Char)) :
    groupAfter group (before ++ after) = groupAfter (groupAfter group before) after := by
  rw [groupAfter, markerNames_append, List.getLast?_append, groupAfter, groupAfter]
  cases (markerNames after).getLast? with
  | none => rfl
  | some name => rfl

theorem markerNames_cons_marker {line name : List Char} (marks : Line.group? line = some name)
    (later : List (List Char)) :
    markerNames (line :: later) = String.ofList name :: markerNames later := by
  simp [markerNames, marks]

theorem markerNames_cons_other {line : List Char} (other : Line.group? line = none)
    (later : List (List Char)) : markerNames (line :: later) = markerNames later := by
  simp [markerNames, other]

theorem Line.group?_of_command? {line name : List Char} (starts : Line.command? line = some name) :
    Line.group? line = none := by
  rw [Line.command?] at starts
  obtain ⟨rest, begins, -⟩ := Option.bind_eq_some_iff.1 starts
  rw [after?_eq_some_iff] at begins
  rw [begins]
  rfl

namespace Session

variable (log later : List Mention) (home group : String) (session : Session)

theorem setHelp_scanner (help : String) :
    ((session.scanner log later home group).setHelp (Registry.refAfter log home) help).enter .idle =
      (session.describe help).scanner log later home group := by
  rw [Scanner.setHelp, scanner, Registry.updateAt_ofLog]
  rfl

theorem declare_scanner (number : Nat) (kind : ArgumentKind) (raw : List Char) :
    (session.scanner log later home group).past
        (Scanner.declare number (Registry.refAfter log home) kind raw) =
      (session.declare number kind raw).map (scanner log later home group) := by
  have name : (session.scanner log later home group).nameAt (Registry.refAfter log home) =
      session.command.name := by
    rw [Scanner.nameAt, scanner, Registry.command?_ofLog]
    rfl
  rw [Scanner.past_declare, declare, name]
  cases Scanner.argumentOf number session.command.name raw with
  | error error => rfl
  | ok argument =>
    have changed := Registry.updateAt_ofLog log later home session.command
      (·.addArgument kind argument)
    exact congrArg (fun registry => Except.ok (Scanner.mk registry _ _)) changed

private theorem advanceOpened_scanner (number : Nat) (line : List Char) :
    (session.scanner log later home group).past
        (Scanner.advanceOpened number line (Registry.refAfter log home)) =
      (session.advanceOpened number line).map (scanner log later home group) := by
  rw [Scanner.advanceOpened, advanceOpened]
  cases Line.help? line with
  | some text => exact congrArg Except.ok (setHelp_scanner log later home group session _)
  | none =>
    by_cases opens : Line.opensHelp line = true
    · simp only [opens, if_true]
      rfl
    · simp only [opens]
      cases Scanner.argumentStart? line with
      | none => rfl
      | some found =>
        obtain ⟨kind, indent, body⟩ := found
        cases balanced : Literal.balancedBlock? body with
        | none =>
          simp only [balanced]
          rfl
        | some block =>
          simp only [balanced]
          exact declare_scanner log later home group session number kind block

private theorem advanceHelp_scanner (line text : List Char) :
    (session.scanner log later home group).past
        (Scanner.advanceHelp line (Registry.refAfter log home) text) =
      .ok ((session.advanceHelp line text).scanner log later home group) := by
  rw [Scanner.advanceHelp, advanceHelp]
  cases Line.closesHelp? line with
  | none => rfl
  | some last => exact congrArg Except.ok (setHelp_scanner log later home group session _)

private theorem advanceArgument_scanner (number : Nat) (line : List Char) (kind : ArgumentKind)
    (indent : Nat) (raw : List Char) :
    (session.scanner log later home group).past
        (Scanner.advanceArgument number line (Registry.refAfter log home) kind indent raw) =
      (session.advanceArgument number line kind indent raw).map
        (scanner log later home group) := by
  rw [Scanner.advanceArgument, advanceArgument]
  split
  · exact declare_scanner log later home group session number kind _
  · rfl

/-- A group marker is noted behind the command. -/
theorem advance_scanner_marker {line name : List Char} (marks : Line.group? line = some name)
    (number : Nat) :
    (session.scanner log later home group).advanced number line =
      .ok (session.scanner log (later ++ markers [line]) home (groupAfter group [line])) := by
  have noted := Registry.ensureGroup_ofLog (log ++ .entry home session.command :: later)
    (String.ofList name)
  rw [List.append_assoc, List.cons_append] at noted
  rw [Scanner.advanced_of_marker marks, markers, groupAfter, markerNames_cons_marker marks]
  exact congrArg Except.ok (congrArg (Scanner.mk · _ _) noted)

private theorem advance_scanner {line : List Char} (inside : Line.command? line = none)
    (number : Nat) :
    (session.scanner log later home group).advanced number line =
      (session.advance number line).map
        (scanner log (later ++ markers [line]) home (groupAfter group [line])) := by
  cases marks : Line.group? line with
  | some name =>
    rw [advance_scanner_marker log later home group session marks, advance, marks]
    rfl
  | none =>
    have quiet : markers [line] = [] ∧ groupAfter group [line] = group := by
      rw [markers, groupAfter, markerNames_cons_other marks]
      exact ⟨rfl, rfl⟩
    rw [Scanner.advanced_of_inner ⟨marks, inside⟩, advance, marks, quiet.1, quiet.2, List.append_nil]
    obtain ⟨command, phase⟩ := session
    cases phase with
    | idle => rfl
    | opened => exact advanceOpened_scanner log later home group _ number line
    | inHelp text => exact advanceHelp_scanner log later home group _ line text
    | inArgument kind indent raw =>
      exact advanceArgument_scanner log later home group _ number line kind indent raw

end Session

theorem Scanner.run_append (number : Nat) (before after : List (List Char)) (scanner : Scanner) :
    scanner.run number (before ++ after) =
      scanner.run number before >>= run (number + before.length) after := by
  rw [run, List.zipIdx_append, List.foldlM_append]
  rfl

theorem Session.run_cons (number : Nat) (line : List Char) (given : List (List Char))
    (session : Session) :
    session.run number (line :: given) =
      session.advance number line >>= run (number + 1) given := by
  rw [run, List.zipIdx_cons, List.foldlM_cons]
  rfl

namespace Session

variable (log later : List Mention) (home group : String) (session : Session)

theorem run_scanner {given : List (List Char)}
    (inside : ∀ line ∈ given, Line.command? line = none) (number : Nat) :
    (session.scanner log later home group).run number given =
      (session.run number given).map
        (scanner log (later ++ markers given) home (groupAfter group given)) := by
  induction given generalizing session later group number with
  | nil =>
    rw [show markers [] = [] from rfl, List.append_nil]
    rfl
  | cons line given ih =>
    rw [List.forall_mem_cons] at inside
    have rest : later ++ markers (line :: given) = later ++ markers [line] ++ markers given := by
      rw [List.append_assoc, ← markers_append]
      rfl
    have current : groupAfter group (line :: given) = groupAfter (groupAfter group [line]) given :=
      groupAfter_append group [line] given
    rw [Scanner.run_cons, advance_scanner log later home group session inside.1, run_cons, rest,
      current]
    cases session.advance number line with
    | error error => rfl
    | ok next =>
      exact ih (later ++ markers [line]) (groupAfter group [line]) next inside.2 (number + 1)

/-- The command that the end of the text leaves is the one that the scanner keeps. -/
theorem finish_scanner :
    (session.scanner log later home group).finish =
      .ofLog (log ++ .entry home session.finish :: later) := by
  obtain ⟨command, phase⟩ := session
  cases phase with
  | idle => rfl
  | opened => rfl
  | inHelp text => exact Registry.updateAt_ofLog log later home command _
  | inArgument kind indent raw => rfl

end Session

def SourceError.shift (count : Nat) : SourceError → SourceError
  | .literal line command cause => .literal (line + count) command cause
  | .field line command cause => .field (line + count) command cause

namespace Session

variable (session : Session)

theorem declare_shift (count number : Nat) (kind : ArgumentKind) (raw : List Char) :
    session.declare (number + count) kind raw =
      (session.declare number kind raw).mapError (·.shift count) := by
  unfold declare Scanner.argumentOf
  cases Literal.parse (String.ofList raw) with
  | error failure => rfl
  | ok literal =>
    dsimp only [Except.mapError, Except.bind]
    cases Argument.ofLiteral literal with
    | error failure => rfl
    | ok argument => rfl

private theorem advanceOpened_shift (count number : Nat) (line : List Char) :
    session.advanceOpened (number + count) line =
      (session.advanceOpened number line).mapError (·.shift count) := by
  rw [advanceOpened, advanceOpened]
  cases Line.help? line with
  | some text => rfl
  | none =>
    by_cases opens : Line.opensHelp line = true
    · simp only [opens, if_true]
      rfl
    · simp only [opens]
      cases Scanner.argumentStart? line with
      | none => rfl
      | some found =>
        obtain ⟨kind, indent, body⟩ := found
        cases balanced : Literal.balancedBlock? body with
        | none =>
          simp only [balanced]
          rfl
        | some block =>
          simp only [balanced]
          exact session.declare_shift count number kind block

private theorem advance_shift (count number : Nat) (line : List Char) :
    session.advance (number + count) line =
      (session.advance number line).mapError (·.shift count) := by
  rw [advance, advance]
  cases Line.group? line with
  | some name => rfl
  | none =>
    obtain ⟨command, phase⟩ := session
    cases phase with
    | idle => rfl
    | opened => exact advanceOpened_shift _ count number line
    | inHelp text => rfl
    | inArgument kind indent raw =>
      dsimp only
      rw [advanceArgument, advanceArgument]
      split
      · exact declare_shift _ count number kind _
      · rfl

/-- Lines with higher numbers fail at higher numbers. -/
theorem run_shift (count number : Nat) (given : List (List Char)) :
    session.run (number + count) given =
      (session.run number given).mapError (·.shift count) := by
  induction given generalizing session number with
  | nil => rfl
  | cons line given ih =>
    rw [run_cons, run_cons, advance_shift]
    cases session.advance number line with
    | error error => rfl
    | ok next =>
      have rest := ih next (number + 1)
      rw [Nat.add_right_comm] at rest
      exact rest

end Session

end CommandReference
