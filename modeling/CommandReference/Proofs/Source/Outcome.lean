import CommandReference.Source.Scanner
import Mathlib.Data.List.Basic

/-! What becomes of a scanner. A line is taken in by work on the scanner, and what such work did
before an error stays done. A line at fault has by then done no more than to take out the state, so
the outcome of a line is either a scanner or an error, and after an error the scanner is the old one
without a command at hand. -/
namespace CommandReference
open Text

/-- Neither a group marker nor the start of a command. -/
structure Line.Inner (line : List Char) : Prop where
  noMarker : Line.group? line = none
  noStart : Line.command? line = none

namespace Scan
variable {α β : Type}

theorem on_bind (work : Scan α) (next : α → Scan β) (scanner : Scanner) :
    (work >>= next).on scanner =
      match work.on scanner with
      | (.ok a, reached) => (next a).on reached
      | (.error error, reached) => (.error error, reached) := by
  unfold on ExceptT.run StateT.run
  simp only [bind, ExceptT.bind, ExceptT.mk, StateT.bind, ExceptT.bindCont]
  obtain ⟨_ | a, reached⟩ := work scanner
  · rfl
  · rfl

/-- What work makes of a scanner, unless it fails. -/
def outcome (work : Scan Unit) (scanner : Scanner) : Except SourceError Scanner :=
  (work.on scanner).1.map fun _ => (work.on scanner).2

private theorem outcome_bind (work : Scan Unit) (next : Unit → Scan Unit) (scanner : Scanner) :
    (work >>= next).outcome scanner = work.outcome scanner >>= (next ()).outcome := by
  unfold outcome
  rw [on_bind]
  obtain ⟨_ | a, reached⟩ := work.on scanner
  · rfl
  · rfl

/-- Work that has done nothing when it fails. -/
def Traceless (work : Scan α) : Prop :=
  ∀ scanner error, (work.on scanner).1 = .error error → (work.on scanner).2 = scanner

theorem traceless_of_ok {work : Scan α} {value : Scanner → α} {change : Scanner → Scanner}
    (done : ∀ scanner, work.on scanner = (.ok (value scanner), change scanner)) : Traceless work := by
  intro scanner error failed
  rw [done] at failed
  cases failed

end Scan

namespace Scanner
variable {scanner : Scanner} {number : Nat} {line : List Char} {error : SourceError}

/-- The name of the command to which a reference leads. -/
def nameAt (command : CommandRef) (scanner : Scanner) : String :=
  ((scanner.registry.command? command).map (·.name)).getD ""

/-- The argument that a text declares for a command of this name. -/
def argumentOf (number : Nat) (name : String) (raw : List Char) : Except SourceError Argument :=
  ((Literal.parse (String.ofList raw)).mapError (.literal number name)).bind fun literal =>
    (Argument.ofLiteral literal).mapError (.field number name)

theorem on_declare (scanner : Scanner) (number : Nat) (command : CommandRef) (kind : ArgumentKind)
    (raw : List Char) :
    (declare number command kind raw).on scanner =
      match argumentOf number (scanner.nameAt command) raw with
      | .ok argument => (.ok (.opened command), scanner.addArgument command kind argument)
      | .error error => (.error error, scanner) := by
  have lifted {α : Type} (result : Except SourceError α) :
      (liftM result : Scan α).on scanner = (result, scanner) := rfl
  have got : (get : Scan Scanner).on scanner = (.ok scanner, scanner) := rfl
  unfold declare argumentOf nameAt
  rw [Scan.on_bind, got]
  dsimp only
  rw [Scan.on_bind, lifted]
  cases (Literal.parse (String.ofList raw)).mapError (SourceError.literal number
    (((scanner.registry.command? command).map (·.name)).getD "")) with
  | error cause => rfl
  | ok literal =>
    dsimp only [Except.bind]
    rw [Scan.on_bind, lifted]
    cases (Argument.ofLiteral literal).mapError (SourceError.field number
      (((scanner.registry.command? command).map (·.name)).getD "")) with
    | error cause => rfl
    | ok argument => rfl

theorem traceless_declare (number : Nat) (command : CommandRef) (kind : ArgumentKind)
    (raw : List Char) : (declare number command kind raw).Traceless := by
  intro scanner error failed
  rw [on_declare] at failed ⊢
  cases found : argumentOf number (scanner.nameAt command) raw with
  | error cause => rfl
  | ok argument =>
    rw [found] at failed
    cases failed

private theorem traceless_advanceState (number : Nat) (line : List Char) (state : ScanState) :
    (advanceState number line state).Traceless := by
  cases state with
  | idle => exact Scan.traceless_of_ok fun _ => rfl
  | opened command =>
    rw [advanceState, advanceOpened]
    split
    · exact Scan.traceless_of_ok fun _ => rfl
    split
    · exact Scan.traceless_of_ok fun _ => rfl
    split
    · exact Scan.traceless_of_ok fun _ => rfl
    split
    · exact traceless_declare _ _ _ _
    · exact Scan.traceless_of_ok fun _ => rfl
  | inHelp command text =>
    rw [advanceState, advanceHelp]
    split
    · exact Scan.traceless_of_ok fun _ => rfl
    · exact Scan.traceless_of_ok fun _ => rfl
  | inArgument command kind indent raw =>
    rw [advanceState, advanceArgument]
    split
    · exact traceless_declare _ _ _ _
    · exact Scan.traceless_of_ok fun _ => rfl

/-- The scanner past some work that finds the next state. -/
def past (work : Scan ScanState) (scanner : Scanner) : Except SourceError Scanner :=
  (work.on (scanner.enter .idle)).1.map fun next => (work.on (scanner.enter .idle)).2.enter next

theorem past_declare (scanner : Scanner) (number : Nat) (command : CommandRef) (kind : ArgumentKind)
    (raw : List Char) :
    scanner.past (declare number command kind raw) =
      (argumentOf number (scanner.nameAt command) raw).map fun argument =>
        (scanner.addArgument command kind argument).enter (.opened command) := by
  have name : (scanner.enter .idle).nameAt command = scanner.nameAt command := rfl
  rw [past, on_declare, name]
  cases argumentOf number (scanner.nameAt command) raw with
  | error cause => rfl
  | ok argument => rfl

/-- The scanner past a line. -/
def advanced (number : Nat) (line : List Char) (scanner : Scanner) : Except SourceError Scanner :=
  (advance number line).outcome scanner

theorem advanced_of_marker {name : List Char} (marks : Line.group? line = some name) :
    scanner.advanced number line = .ok (scanner.enterGroup (String.ofList name)) := by
  rw [advanced, advance, marks]
  rfl

theorem advanced_of_command {name : List Char} (other : Line.group? line = none)
    (starts : Line.command? line = some name) :
    scanner.advanced number line = .ok (scanner.openCommand (String.ofList name)) := by
  rw [advanced, advance, other, starts]
  rfl

theorem on_advance_of_inner (inner : Line.Inner line) (number : Nat) (scanner : Scanner) :
    (advance number line).on scanner =
      match (advanceState number line scanner.state).on (scanner.enter .idle) with
      | (.ok next, reached) => (.ok (), reached.enter next)
      | (.error error, reached) => (.error error, reached) := by
  have taken : takeState.on scanner = (.ok scanner.state, scanner.enter .idle) := rfl
  rw [advance, inner.noMarker, inner.noStart]
  dsimp only
  rw [Scan.on_bind, taken]
  dsimp only
  rw [Scan.on_bind]
  obtain ⟨_ | next, reached⟩ := (advanceState number line scanner.state).on (scanner.enter .idle)
  · rfl
  · rfl

theorem advanced_of_inner (inner : Line.Inner line) :
    scanner.advanced number line = scanner.past (advanceState number line scanner.state) := by
  rw [advanced, Scan.outcome, on_advance_of_inner inner, past]
  obtain ⟨_ | next, reached⟩ := (advanceState number line scanner.state).on (scanner.enter .idle)
  · rfl
  · rfl

/-- A line at fault leaves the scanner as it was, but with no command at hand. -/
theorem snd_advance_of_error (failed : ((advance number line).on scanner).1 = .error error) :
    ((advance number line).on scanner).2 = scanner.enter .idle := by
  cases marks : Line.group? line with
  | some name =>
    rw [advance, marks] at failed
    cases failed
  | none =>
    cases starts : Line.command? line with
    | some name =>
      rw [advance, marks, starts] at failed
      cases failed
    | none =>
      have traceless := traceless_advanceState number line scanner.state (scanner.enter .idle)
      rw [on_advance_of_inner ⟨marks, starts⟩] at failed ⊢
      cases done : (advanceState number line scanner.state).on (scanner.enter .idle) with
      | mk result reached =>
        rw [done] at failed traceless
        cases result with
        | error cause => exact traceless cause rfl
        | ok next => cases failed

theorem feed_of_ok {next : Scanner} (done : scanner.advanced number line = .ok next) :
    scanner.feed number line = (next, none) := by
  unfold advanced Scan.outcome at done
  unfold feed
  cases fed : (advance number line).on scanner with
  | mk result reached =>
    rw [fed] at done
    cases result with
    | error cause => cases done
    | ok a =>
      cases done
      rfl

theorem feed_of_error (failed : scanner.advanced number line = .error error) :
    scanner.feed number line = (scanner.enter .idle, some error) := by
  have left := @snd_advance_of_error scanner number line error
  unfold advanced Scan.outcome at failed
  unfold feed
  cases done : (advance number line).on scanner with
  | mk result reached =>
    rw [done] at failed left
    cases result with
    | ok a => cases failed
    | error cause =>
      cases failed
      rw [← left rfl]

/-- A scan of lines that have the numbers from `number` on. -/
def run (number : Nat) (given : List (List Char)) (scanner : Scanner) :
    Except SourceError Scanner :=
  (given.zipIdx number).foldlM (fun current item => current.advanced item.2 item.1) scanner

theorem run_cons (number : Nat) (line : List Char) (given : List (List Char)) (scanner : Scanner) :
    scanner.run number (line :: given) =
      scanner.advanced number line >>= run (number + 1) given := by
  rw [run, List.zipIdx_cons, List.foldlM_cons]
  rfl

private theorem outcome_forM (items : List (List Char × Nat)) (scanner : Scanner) :
    (items.forM fun item => advance item.2 item.1).outcome scanner =
      items.foldlM (fun current item => current.advanced item.2 item.1) scanner := by
  induction items generalizing scanner with
  | nil => rfl
  | cons item items ih =>
    have step : (item :: items).forM (fun item => advance item.2 item.1) =
        advance item.2 item.1 >>= fun _ => items.forM fun item => advance item.2 item.1 := rfl
    rw [step, Scan.outcome_bind, List.foldlM_cons]
    exact congrArg _ (funext ih)

theorem scan_eq_run (scanner : Scanner) (source : String) :
    scanner.scan source = (scanner.run 1 (lines source.toList)).map finish := by
  rw [run, ← outcome_forM, scan, Scan.outcome]
  obtain ⟨_ | a, reached⟩ :=
    (((lines source.toList).zipIdx 1).forM fun item => advance item.2 item.1).on scanner
  · rfl
  · rfl

end Scanner

end CommandReference
