import CommandReference.Project.CommandLine
import Mathlib.Tactic.Common

/-! File systems by their laws: a state is seen as a map from files to bytes, and every
operation on it takes full effect or fails without effect. -/
namespace CommandReference

variable {σ File α β : Type}

/-- What an operation answers at a state, and the state after it. -/
def act (operation : StateM σ α) (state : σ) : α × σ := (operation.run state).run

/-- How a run that may fail ends at a state, and the state after it. -/
def perform (run : ExceptT Failure (StateM σ) α) (state : σ) : Except Failure α × σ :=
  act run.run state

theorem act_bind (first : StateM σ α) (next : α → StateM σ β) (state : σ) :
    act (first >>= next) state = act (next (act first state).1) (act first state).2 := rfl

@[simp] theorem perform_pure (value : α) (state : σ) :
    perform (pure value) state = (.ok value, state) := rfl

@[simp] theorem perform_throw (failure : Failure) (state : σ) :
    perform (throw failure : ExceptT Failure (StateM σ) α) state = (.error failure, state) := rfl

@[simp] theorem perform_mk (result : Except Failure α) (state : σ) :
    perform (ExceptT.mk (pure result) : ExceptT Failure (StateM σ) α) state = (result, state) := rfl

@[simp] theorem perform_onPath [Files (StateM σ)] (path : String)
    (operation : StateM σ (Except FileError α)) (state : σ) :
    perform (onPath path operation) state =
      ((act operation state).1.mapError (.file path), (act operation state).2) := rfl

theorem perform_bind (first : ExceptT Failure (StateM σ) α)
    (next : α → ExceptT Failure (StateM σ) β) (state : σ) :
    perform (first >>= next) state =
      match perform first state with
      | (.ok value, later) => perform (next value) later
      | (.error failure, later) => (.error failure, later) := by
  unfold perform
  rw [ExceptT.run_bind, act_bind]
  cases act first.run state with
  | mk result later => cases result <;> rfl

/-- A way to see a state as a map from files to bytes, with paths that name the files. Two
paths may name one file, and a file that is named need not be there. -/
structure FileView (σ File : Type) where
  file? : σ → String → Option File
  bytes? : σ → File → Option ByteArray

namespace FileView

/-- A file has got new bytes. All other files, and the names of all, are as they were. -/
structure Replaces (view : FileView σ File) (file : File) (bytes : ByteArray)
    (state after : σ) : Prop where
  named : view.file? after = view.file? state
  written : view.bytes? after file = some bytes
  others : ∀ other, other ≠ file → view.bytes? after other = view.bytes? state other

/-- Operations take full effect or fail without effect. What is copied could have been read,
and nothing is said of a file that is copied over itself. -/
structure Lawful [Files (StateM σ)] (view : FileView σ File) : Prop where
  present_state : ∀ path (state : σ), (act (Files.isPresent path) state).2 = state
  read_state : ∀ path (state : σ), (act (Files.read path) state).2 = state
  read_ok : ∀ path (state : σ) bytes, (act (Files.read path) state).1 = .ok bytes →
    ∃ file, view.file? state path = some file ∧ view.bytes? state file = some bytes
  write_error : ∀ path bytes (state : σ) cause,
    (act (Files.write path bytes) state).1 = .error cause →
      (act (Files.write path bytes) state).2 = state
  write_ok : ∀ path bytes (state : σ), (act (Files.write path bytes) state).1 = .ok () →
    ∃ file, view.file? state path = some file ∧
      view.Replaces file bytes state (act (Files.write path bytes) state).2
  copy_error : ∀ source target (state : σ) cause,
    (act (Files.copy source target) state).1 = .error cause →
      (act (Files.copy source target) state).2 = state
  copy_ok : ∀ source target (state : σ), (act (Files.copy source target) state).1 = .ok () →
    ∃ bytes file, (act (Files.read source) state).1 = .ok bytes ∧
      view.file? state target = some file ∧
      (view.file? state source ≠ some file →
        view.Replaces file bytes state (act (Files.copy source target) state).2)

/-- Operations fail for want of a file only. -/
structure Dependable [Files (StateM σ)] (view : FileView σ File) : Prop extends
    view.Lawful where
  read_file : ∀ path (state : σ) file bytes, view.file? state path = some file →
    view.bytes? state file = some bytes → (act (Files.read path) state).1 = .ok bytes
  write_file : ∀ path bytes (state : σ) file, view.file? state path = some file →
    (act (Files.write path bytes) state).1 = .ok ()
  copy_file : ∀ source target (state : σ) bytes file,
    (act (Files.read source) state).1 = .ok bytes → view.file? state target = some file →
      (act (Files.copy source target) state).1 = .ok ()

theorem Replaces.again {view : FileView σ File} {file : File} {first bytes : ByteArray}
    {state middle after : σ} (before : view.Replaces file first state middle)
    (later : view.Replaces file bytes middle after) : view.Replaces file bytes state after where
  named := later.named.trans before.named
  written := later.written
  others other apart := (later.others other apart).trans (before.others other apart)

end FileView

/-- A run that leaves every state as it is. -/
def ReadOnly (run : ExceptT Failure (StateM σ) α) : Prop :=
  ∀ state, (perform run state).2 = state

namespace ReadOnly

theorem pure (value : α) : ReadOnly (Pure.pure value : ExceptT Failure (StateM σ) α) :=
  fun _ => rfl

theorem throw (failure : Failure) :
    ReadOnly (MonadExcept.throw failure : ExceptT Failure (StateM σ) α) :=
  fun _ => rfl

theorem bind {first : ExceptT Failure (StateM σ) α} {next : α → ExceptT Failure (StateM σ) β}
    (opening : ReadOnly first) (rest : ∀ value, ReadOnly (next value)) :
    ReadOnly (first >>= next) := by
  intro state
  have kept := opening state
  rw [perform_bind]
  cases ended : perform first state with
  | mk result later =>
    rw [ended] at kept
    subst kept
    cases result with
    | ok value => exact rest value later
    | error failure => rfl

theorem perform_eq {run : ExceptT Failure (StateM σ) α} (kept : ReadOnly run) (state : σ) :
    perform run state = ((perform run state).1, state) :=
  Prod.ext rfl (kept state)

end ReadOnly

namespace FileView.Lawful

variable [Files (StateM σ)] {view : FileView σ File}

theorem readOnly_readText (lawful : view.Lawful) (path : String) :
    ReadOnly (readText path : ExceptT Failure (StateM σ) String) := by
  unfold readText
  apply ReadOnly.bind
  · exact lawful.read_state path
  · intro bytes
    cases String.fromUTF8? bytes <;> exact fun _ => rfl

theorem readOnly_load (lawful : view.Lawful) (path : String) :
    ReadOnly (Settings.load path : ExceptT Failure (StateM σ) Settings) := by
  unfold Settings.load
  apply ReadOnly.bind
  · exact lawful.read_state path
  · intro result
    cases result with
    | error cause => exact ReadOnly.throw _
    | ok bytes =>
      dsimp only
      cases (String.fromUTF8? bytes).bind Settings.ofYaml? with
      | none => exact ReadOnly.throw _
      | some settings =>
        dsimp only
        cases settings.validate <;> exact fun _ => rfl

private theorem readOnly_loadOrStandard (lawful : view.Lawful) (path : String) :
    ReadOnly (Settings.loadOrStandard path : ExceptT Failure (StateM σ) Settings) := by
  unfold Settings.loadOrStandard
  apply ReadOnly.bind
  · exact lawful.present_state path
  · intro present
    cases present with
    | true => exact lawful.readOnly_load path
    | false => exact ReadOnly.pure _

theorem readOnly_extract (lawful : view.Lawful) (path : String) (settings : Settings) :
    ReadOnly (Project.extract path settings : ExceptT Failure (StateM σ) Registry) := by
  unfold Project.extract
  apply ReadOnly.bind (lawful.readOnly_readText path)
  intro text
  cases Registry.ofSource settings.defaultGroup text <;> exact fun _ => rfl

theorem readOnly_renderOver (lawful : view.Lawful) (project : Project) (registry : Registry) :
    ReadOnly (project.renderOver registry : ExceptT Failure (StateM σ) Outcome) :=
  (lawful.readOnly_readText project.document).bind fun _ _ => rfl

theorem readOnly_preview (lawful : view.Lawful) (project : Project) :
    ReadOnly (project.preview : ExceptT Failure (StateM σ) Outcome) :=
  (lawful.readOnly_extract project.source project.settings).bind
    (lawful.readOnly_renderOver project)

theorem readOnly_project (lawful : view.Lawful) (options : CommandLine.Options) :
    ReadOnly (options.project : ExceptT Failure (StateM σ) Project) := by
  unfold CommandLine.Options.project
  cases options.settings with
  | some path => exact (lawful.readOnly_load path).bind fun _ => ReadOnly.pure _
  | none => exact (lawful.readOnly_loadOrStandard _).bind fun _ => ReadOnly.pure _

end FileView.Lawful

end CommandReference
