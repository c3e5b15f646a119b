import CommandReference.Proofs.Command.Places
import CommandReference.Proofs.Source.Session

/-! What one line can do to a scanner. A marker names the group, a start opens a command, and any
other line is about the command at hand: it passes, gives the help text or declares an argument.
A line at fault passes too, and the command at hand is given up. -/
namespace CommandReference
open Text

/-- The command at hand. -/
def ScanState.held? : ScanState → Option CommandRef
  | idle => none
  | opened command => some command
  | inHelp command _ => some command
  | inArgument command _ _ _ => some command

/-- What a block collects from lines: all but the group markers, each with a line feed. -/
def Line.collected (given : List (List Char)) : List Char :=
  (given.filter fun line => (Line.group? line).isNone).flatMap (· ++ ['\n'])

theorem Line.collected_append (first second : List (List Char)) :
    Line.collected (first ++ second) = Line.collected first ++ Line.collected second := by
  unfold Line.collected
  rw [List.filter_append, List.flatMap_append]

theorem Line.collected_marker {line name : List Char} (marks : Line.group? line = some name) :
    Line.collected [line] = [] := by
  simp [Line.collected, marks]

theorem Line.collected_other {line : List Char} (other : Line.group? line = none) :
    Line.collected [line] = line ++ ['\n'] := by
  simp [Line.collected, other]

namespace Scanner

/-- The help text that a line gives to the command at hand: on one line, or as the end of a text
that has been collected. -/
def helpGiven? (line : List Char) (scanner : Scanner) : Option String :=
  if (Line.group? line).isSome || (Line.command? line).isSome then none
  else
    match scanner.state with
    | .opened _ => (Line.help? line).map String.ofList
    | .inHelp _ text =>
      (Line.closesHelp? line).map fun last => Help.normalize (String.ofList (text ++ last))
    | _ => none

inductive Step (scanner : Scanner) (line : List Char) : Scanner → Prop where
  | marked {name : List Char} : Line.group? line = some name →
      Step scanner line (scanner.enterGroup (String.ofList name))
  | started {name : List Char} : Line.command? line = some name →
      Step scanner line (scanner.openCommand (String.ofList name))
  | passed (state : ScanState) : Line.Inner line →
      (∀ ref, state.held? = some ref → scanner.state.held? = some ref) →
      Step scanner line { scanner with state := state }
  | described {ref : CommandRef} {help : String} : Line.Inner line →
      scanner.state.held? = some ref → scanner.helpGiven? line = some help →
      Step scanner line { scanner.setHelp ref help with state := .idle }
  | declared {ref : CommandRef} (kind : ArgumentKind) (argument : Argument) : Line.Inner line →
      scanner.state.held? = some ref →
      Step scanner line { scanner with
        registry := scanner.registry.updateAt ref (·.addArgument kind argument)
        state := .opened ref }

theorem fst_feed (scanner : Scanner) (number : Nat) (line : List Char) :
    (scanner.feed number line).1 =
      (scanner.advanced number line).toOption.getD (scanner.enter .idle) := by
  cases done : scanner.advanced number line with
  | error error => rw [feed_of_error done]; rfl
  | ok next => rw [feed_of_ok done]; rfl

theorem declare_cases (scanner : Scanner) (number : Nat) (ref : CommandRef) (kind : ArgumentKind)
    (raw : List Char) :
    (∃ error, scanner.past (declare number ref kind raw) = .error error) ∨
      ∃ argument, scanner.past (declare number ref kind raw) = .ok { scanner with
        registry := scanner.registry.updateAt ref (·.addArgument kind argument)
        state := .opened ref } := by
  rw [past_declare]
  cases argumentOf number (scanner.nameAt ref) raw with
  | error error => exact .inl ⟨error, rfl⟩
  | ok argument => exact .inr ⟨argument, rfl⟩

variable {scanner : Scanner} {line : List Char}

theorem Step.given_up (inner : Line.Inner line) :
    scanner.Step line (scanner.enter .idle) := by
  apply Step.passed _ inner
  intro ref held
  cases held

theorem step_declare (inner : Line.Inner line) {ref : CommandRef}
    (held : scanner.state.held? = some ref) (number : Nat) (kind : ArgumentKind)
    (raw : List Char) :
    scanner.Step line
      ((scanner.past (declare number ref kind raw)).toOption.getD (scanner.enter .idle)) := by
  rcases scanner.declare_cases number ref kind raw with ⟨error, failed⟩ | ⟨argument, done⟩
  · rw [failed]
    exact .given_up inner
  · rw [done]
    exact .declared kind argument inner held

theorem helpGiven?_of_inner (inner : Line.Inner line) :
    scanner.helpGiven? line =
      match scanner.state with
      | .opened _ => (Line.help? line).map String.ofList
      | .inHelp _ text =>
        (Line.closesHelp? line).map fun last => Help.normalize (String.ofList (text ++ last))
      | _ => none := by
  simp [helpGiven?, inner.noMarker, inner.noStart]

private theorem step_advanceOpened (inner : Line.Inner line) {ref : CommandRef}
    (opened : scanner.state = .opened ref) (number : Nat) :
    scanner.Step line
      ((scanner.past (advanceOpened number line ref)).toOption.getD (scanner.enter .idle)) := by
  have held : scanner.state.held? = some ref := by rw [opened]; rfl
  have given : scanner.helpGiven? line = _ := helpGiven?_of_inner inner
  rw [opened] at given
  unfold advanceOpened
  cases helps : Line.help? line with
  | some text =>
    rw [helps] at given
    exact .described inner held given
  | none =>
    by_cases opens : Line.opensHelp line = true
    · rw [if_pos opens]
      exact .passed (.inHelp ref []) inner fun _ same => held.trans same
    · rw [if_neg opens]
      cases Scanner.argumentStart? line with
      | none => exact .passed (.opened ref) inner fun _ same => held.trans same
      | some found =>
        obtain ⟨kind, indent, body⟩ := found
        dsimp only
        cases Literal.balancedBlock? body with
        | some block => exact step_declare inner held number kind block
        | none =>
          exact .passed (.inArgument ref kind indent (body ++ ['\n'])) inner
            fun _ same => held.trans same

private theorem step_advanceHelp (inner : Line.Inner line) {ref : CommandRef} {text : List Char}
    (reading : scanner.state = .inHelp ref text) :
    scanner.Step line
      ((scanner.past (advanceHelp line ref text)).toOption.getD (scanner.enter .idle)) := by
  have held : scanner.state.held? = some ref := by rw [reading]; rfl
  have given : scanner.helpGiven? line = _ := helpGiven?_of_inner inner
  rw [reading] at given
  unfold advanceHelp
  cases closes : Line.closesHelp? line with
  | some last =>
    rw [closes] at given
    exact .described inner held given
  | none =>
    exact .passed (.inHelp ref (text ++ line ++ ['\n'])) inner fun _ same => held.trans same

/-- Every line makes one of the steps, whether or not it is at fault. -/
theorem step_feed (scanner : Scanner) (number : Nat) (line : List Char) :
    scanner.Step line (scanner.feed number line).1 := by
  rw [fst_feed]
  cases marks : Line.group? line with
  | some name =>
    rw [advanced_of_marker marks]
    exact .marked marks
  | none =>
    cases starts : Line.command? line with
    | some name =>
      rw [advanced_of_command marks starts]
      exact .started starts
    | none =>
      have inner : Line.Inner line := ⟨marks, starts⟩
      rw [advanced_of_inner inner]
      cases reading : scanner.state with
      | idle => exact .given_up inner
      | opened ref => exact step_advanceOpened inner reading number
      | inHelp ref text => exact step_advanceHelp inner reading
      | inArgument ref kind indent raw =>
        have held : scanner.state.held? = some ref := by rw [reading]; rfl
        rw [advanceState, advanceArgument]
        split
        · exact step_declare inner held number kind _
        · exact .passed (.inArgument ref kind indent (raw ++ line ++ ['\n'])) inner
            fun _ same => held.trans same

/-- Feeds lines with their numbers, whatever becomes of each. -/
def feedAll (given : List (Nat × List Char)) (scanner : Scanner) : Scanner :=
  given.foldl (fun current item => (current.feed item.1 item.2).1) scanner

theorem feedAll_cons (item : Nat × List Char) (given : List (Nat × List Char))
    (scanner : Scanner) :
    scanner.feedAll (item :: given) = (scanner.feed item.1 item.2).1.feedAll given := rfl

theorem feedAll_append (first second : List (Nat × List Char)) (scanner : Scanner) :
    scanner.feedAll (first ++ second) = (scanner.feedAll first).feedAll second :=
  List.foldl_append

end Scanner

end CommandReference
