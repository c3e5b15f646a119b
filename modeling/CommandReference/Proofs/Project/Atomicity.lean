import CommandReference.Proofs.Project.Disk

/-! A regeneration is all or nothing: the document is replaced only after its old bytes are
kept, a failure touches no file but the backup, and the preview tells the outcome. -/
namespace CommandReference

variable {σ File : Type}

private theorem fromUTF8?_eq_some_iff {bytes : ByteArray} {text : String} :
    String.fromUTF8? bytes = some text ↔ bytes = text.toUTF8 := by
  unfold String.fromUTF8?
  constructor
  · intro valid
    split at valid
    · rw [← Option.some.inj valid]
      rfl
    · simp at valid
  · rintro rfl
    exact dif_pos text.isValidUTF8

theorem outcomeOver_eq_ok_iff {settings : Settings} {registry : Registry} {old : String}
    {outcome : Outcome} :
    Project.outcomeOver settings registry old = .ok outcome ↔
      ∃ recovered, Document.recover settings registry old = .ok recovered ∧
        outcome.recovered = recovered ∧
        outcome.document = Document.render settings recovered.requirements recovered.registry ∧
        outcome.changed = decide (outcome.document ≠ old) := by
  unfold Project.outcomeOver
  cases Document.recover settings registry old with
  | error cause => simp
  | ok recovered =>
    obtain ⟨found, document, changed⟩ := outcome
    simp only [Except.ok.injEq, Outcome.mk.injEq, exists_eq_left']
    constructor
    · rintro ⟨rfl, rfl, rfl⟩
      exact ⟨rfl, rfl, rfl⟩
    · rintro ⟨rfl, rfl, same⟩
      exact ⟨rfl, rfl, same.symm⟩

section

variable [Files (StateM σ)] {view : FileView σ File}

theorem fst_readText_eq_ok_iff {path : String} {state : σ} {text : String} :
    (perform (readText path) state).1 = .ok text ↔
      (act (Files.read path) state).1 = .ok text.toUTF8 := by
  unfold readText
  rw [perform_bind, perform_onPath]
  rcases act (Files.read path) state with ⟨_ | bytes, later⟩
  · simp [Except.mapError]
  · simp only [Except.mapError, Except.ok.injEq, ← fromUTF8?_eq_some_iff]
    cases String.fromUTF8? bytes <;> simp

theorem fst_extract_eq_ok_iff {path : String} {settings : Settings} {state : σ}
    {registry : Registry} (lawful : view.Lawful) :
    (perform (Project.extract path settings) state).1 = .ok registry ↔
      ∃ text, (act (Files.read path) state).1 = .ok text.toUTF8 ∧
        Registry.ofSource settings.defaultGroup text = .ok registry := by
  simp only [← fst_readText_eq_ok_iff]
  unfold Project.extract
  rw [perform_bind, (lawful.readOnly_readText path).perform_eq state]
  cases (perform (readText path) state).1 with
  | error failure => simp
  | ok text => cases declared : Registry.ofSource settings.defaultGroup text <;> simp [declared]

theorem fst_renderOver_eq_ok_iff {project : Project} {registry : Registry} {state : σ}
    {outcome : Outcome} (lawful : view.Lawful) :
    (perform (project.renderOver registry) state).1 = .ok outcome ↔
      ∃ old, (act (Files.read project.document) state).1 = .ok old.toUTF8 ∧
        Project.outcomeOver project.settings registry old = .ok outcome := by
  simp only [← fst_readText_eq_ok_iff]
  unfold Project.renderOver
  rw [perform_bind, (lawful.readOnly_readText project.document).perform_eq state]
  cases (perform (readText project.document) state).1 with
  | error failure => simp
  | ok text => simp

theorem fst_preview_eq_ok_iff {project : Project} {state : σ} {outcome : Outcome}
    (lawful : view.Lawful) :
    (perform project.preview state).1 = .ok outcome ↔
      ∃ registry, (perform (Project.extract project.source project.settings) state).1 =
          .ok registry ∧
        (perform (project.renderOver registry) state).1 = .ok outcome := by
  unfold Project.preview
  rw [perform_bind,
    (lawful.readOnly_extract project.source project.settings).perform_eq state]
  cases (perform (Project.extract project.source project.settings) state).1 with
  | error failure => simp
  | ok registry => simp

/-- All that a regeneration can do: a failure at one of its four steps, or the whole. The
document is read again after it has been copied. -/
inductive Regeneration (project : Project) (state : σ) : Except Failure Outcome × σ → Prop
  | unextracted {failure : Failure}
      (refused : (perform (Project.extract project.source project.settings) state).1 =
        .error failure) :
      Regeneration project state (.error failure, state)
  | uncopied {registry : Registry} {cause : FileError}
      (extracted : (perform (Project.extract project.source project.settings) state).1 =
        .ok registry)
      (refused : (act (Files.copy project.document project.backup) state).1 = .error cause) :
      Regeneration project state (.error (.file project.document cause), state)
  | unrendered {registry : Registry} {saved : σ} {failure : Failure}
      (extracted : (perform (Project.extract project.source project.settings) state).1 =
        .ok registry)
      (copied : act (Files.copy project.document project.backup) state = (.ok (), saved))
      (refused : (perform (project.renderOver registry) saved).1 = .error failure) :
      Regeneration project state (.error failure, saved)
  | unwritten {registry : Registry} {saved : σ} {outcome : Outcome} {cause : FileError}
      (extracted : (perform (Project.extract project.source project.settings) state).1 =
        .ok registry)
      (copied : act (Files.copy project.document project.backup) state = (.ok (), saved))
      (rendered : (perform (project.renderOver registry) saved).1 = .ok outcome)
      (refused : (act (Files.write project.document outcome.document.toUTF8) saved).1 =
        .error cause) :
      Regeneration project state (.error (.file project.document cause), saved)
  | written {registry : Registry} {saved after : σ} {outcome : Outcome}
      (extracted : (perform (Project.extract project.source project.settings) state).1 =
        .ok registry)
      (copied : act (Files.copy project.document project.backup) state = (.ok (), saved))
      (rendered : (perform (project.renderOver registry) saved).1 = .ok outcome)
      (written : act (Files.write project.document outcome.document.toUTF8) saved =
        (.ok (), after)) :
      Regeneration project state (.ok outcome, after)

theorem regeneration_perform (lawful : view.Lawful) (project : Project) (state : σ) :
    Regeneration project state (perform project.regenerate state) := by
  unfold Project.regenerate
  rw [perform_bind,
    (lawful.readOnly_extract project.source project.settings).perform_eq state]
  cases extracted : (perform (Project.extract project.source project.settings) state).1 with
  | error failure => exact .unextracted extracted
  | ok registry =>
    dsimp only
    rw [perform_bind, perform_onPath]
    rcases copied : act (Files.copy project.document project.backup) state with ⟨_ | _, saved⟩
    · have refused := congrArg Prod.fst copied
      obtain rfl : state = saved :=
        (lawful.copy_error _ _ _ _ refused).symm.trans (congrArg Prod.snd copied)
      exact .uncopied extracted refused
    · dsimp only [Except.mapError]
      rw [perform_bind, (lawful.readOnly_renderOver project registry).perform_eq]
      cases rendered : (perform (project.renderOver registry) saved).1 with
      | error failure => exact .unrendered extracted copied rendered
      | ok outcome =>
        dsimp only
        rw [perform_bind, perform_onPath]
        rcases written : act (Files.write project.document outcome.document.toUTF8) saved
          with ⟨_ | _, after⟩
        · have refused := congrArg Prod.fst written
          obtain rfl : saved = after :=
            (lawful.write_error _ _ _ _ refused).symm.trans (congrArg Prod.snd written)
          exact .unwritten extracted copied rendered refused
        · exact .written extracted copied rendered written

end

namespace FileView

/-- No file but the backup has changed, and the backup only to the bytes of the document. -/
def OnlySaved (view : FileView σ File) (project : Project) (state after : σ) : Prop :=
  ∀ file, view.bytes? after file = view.bytes? state file ∨
    view.file? state project.backup = some file ∧
      ∃ document, view.file? state project.document = some document ∧
        view.bytes? after file = view.bytes? state document

/-- The backup holds the old bytes of the document, the document a new text, and all else is
as it was. -/
def Renewed (view : FileView σ File) (project : Project) (text : String)
    (state after : σ) : Prop :=
  ∃ document backup old, view.file? state project.document = some document ∧
    view.file? state project.backup = some backup ∧
    view.bytes? state document = some old ∧ view.bytes? after backup = some old ∧
    view.bytes? after document = some text.toUTF8 ∧
    view.file? after = view.file? state ∧
    ∀ file, file ≠ document → file ≠ backup → view.bytes? after file = view.bytes? state file

/-- The document and its backup are different files. -/
def Apart (view : FileView σ File) (project : Project) (state : σ) : Prop :=
  ∀ file, view.file? state project.document = some file →
    view.file? state project.backup ≠ some file

end FileView

section

variable [Files (StateM σ)] {view : FileView σ File}

/-- What a copy that succeeds leaves, as a later reading of the document sees it. -/
theorem copied_backup (lawful : view.Lawful) {project : Project} {state saved : σ}
    (apart : view.Apart project state)
    (copied : act (Files.copy project.document project.backup) state = (.ok (), saved)) :
    ∃ document backup old, (act (Files.read project.document) state).1 = .ok old ∧
      view.file? state project.document = some document ∧
      view.file? state project.backup = some backup ∧ document ≠ backup ∧
      view.bytes? state document = some old ∧ view.Replaces backup old state saved := by
  obtain ⟨old, backup, readable, kept, replaces⟩ :=
    lawful.copy_ok _ _ _ (congrArg Prod.fst copied)
  obtain ⟨document, named, held⟩ := lawful.read_ok _ _ _ readable
  have other : document ≠ backup := fun same => apart document named (same ▸ kept)
  rw [copied] at replaces
  refine ⟨document, backup, old, readable, named, kept, other, held, replaces ?_⟩
  rw [named]
  exact fun same => other (Option.some.inj same)

theorem onlySaved_copied (lawful : view.Lawful) {project : Project} {state saved : σ}
    (apart : view.Apart project state)
    (copied : act (Files.copy project.document project.backup) state = (.ok (), saved)) :
    view.OnlySaved project state saved := by
  obtain ⟨document, backup, old, -, named, kept, -, held, replaces⟩ :=
    copied_backup lawful apart copied
  intro file
  by_cases here : file = backup
  · right
    subst here
    exact ⟨kept, document, named, replaces.written.trans held.symm⟩
  · left
    exact replaces.others file here

/-- The document that is read after the copy is the one that was there before. -/
theorem fst_renderOver_copied (lawful : view.Lawful) {project : Project} {registry : Registry}
    {state saved : σ} {outcome : Outcome} (apart : view.Apart project state)
    (copied : act (Files.copy project.document project.backup) state = (.ok (), saved))
    (rendered : (perform (project.renderOver registry) saved).1 = .ok outcome) :
    (perform (project.renderOver registry) state).1 = .ok outcome := by
  obtain ⟨document, backup, old, readable, named, -, other, held, replaces⟩ :=
    copied_backup lawful apart copied
  obtain ⟨text, again, made⟩ := (fst_renderOver_eq_ok_iff lawful).mp rendered
  obtain ⟨document', named', held'⟩ := lawful.read_ok _ _ _ again
  rw [replaces.named, named, Option.some.injEq] at named'
  subst named'
  rw [replaces.others _ other, held, Option.some.injEq] at held'
  exact (fst_renderOver_eq_ok_iff lawful).mpr ⟨text, held' ▸ readable, made⟩

theorem preview_of_regenerate (lawful : view.Lawful) {project : Project} {state after : σ}
    {outcome : Outcome} (apart : view.Apart project state)
    (done : perform project.regenerate state = (.ok outcome, after)) :
    perform project.preview state = (.ok outcome, state) := by
  have possible := regeneration_perform lawful project state
  rw [done] at possible
  cases possible with
  | written extracted copied rendered _ =>
    rw [(lawful.readOnly_preview project).perform_eq state, (fst_preview_eq_ok_iff lawful).mpr
      ⟨_, extracted, fst_renderOver_copied lawful apart copied rendered⟩]

theorem renewed_of_regenerate (lawful : view.Lawful) {project : Project} {state after : σ}
    {outcome : Outcome} (apart : view.Apart project state)
    (done : perform project.regenerate state = (.ok outcome, after)) :
    view.Renewed project outcome.document state after := by
  have possible := regeneration_perform lawful project state
  rw [done] at possible
  cases possible with
  | @written _ saved _ _ _ copied _ written =>
    obtain ⟨document, backup, old, -, named, kept, other, held, first⟩ :=
      copied_backup lawful apart copied
    obtain ⟨document', named', second⟩ := lawful.write_ok _ _ _ (congrArg Prod.fst written)
    rw [first.named, named, Option.some.injEq] at named'
    subst named'
    rw [written] at second
    refine ⟨document, backup, old, named, kept, held, ?_, second.written,
      second.named.trans first.named, ?_⟩
    · rw [second.others _ other.symm, first.written]
    · intro file notDocument notBackup
      rw [second.others _ notDocument, first.others _ notBackup]

private theorem onlySaved_of_regenerate (lawful : view.Lawful) {project : Project} {state after : σ}
    {failure : Failure} (apart : view.Apart project state)
    (failed : perform project.regenerate state = (.error failure, after)) :
    view.OnlySaved project state after := by
  have possible := regeneration_perform lawful project state
  rw [failed] at possible
  cases possible with
  | unextracted _ => exact fun _ => .inl rfl
  | uncopied _ _ => exact fun _ => .inl rfl
  | unrendered _ copied _ => exact onlySaved_copied lawful apart copied
  | unwritten _ copied _ _ => exact onlySaved_copied lawful apart copied

/-- Nothing is touched before the source is extracted and the document copied. -/
theorem untouched_of_refused (lawful : view.Lawful) {project : Project} {state : σ}
    (refused :
      (∃ failure, (perform (Project.extract project.source project.settings) state).1 =
        .error failure) ∨
      ∃ cause, (act (Files.copy project.document project.backup) state).1 = .error cause) :
    (perform project.regenerate state).2 = state := by
  have possible := regeneration_perform lawful project state
  generalize perform project.regenerate state = ended at possible
  cases possible with
  | unextracted _ => rfl
  | uncopied _ _ => rfl
  | unrendered extracted copied _ => simp [extracted, copied] at refused
  | unwritten extracted copied _ _ => simp [extracted, copied] at refused
  | written extracted copied _ _ => simp [extracted, copied] at refused

/-- An outcome is unchanged exactly if its document has the bytes that are there. -/
theorem unchanged_iff (lawful : view.Lawful) {project : Project} {state : σ} {outcome : Outcome}
    (shown : (perform project.preview state).1 = .ok outcome) :
    outcome.changed = false ↔
      ∃ document, view.file? state project.document = some document ∧
        view.bytes? state document = some outcome.document.toUTF8 := by
  obtain ⟨registry, -, rendered⟩ := (fst_preview_eq_ok_iff lawful).mp shown
  obtain ⟨old, readable, made⟩ := (fst_renderOver_eq_ok_iff lawful).mp rendered
  obtain ⟨recovered, -, -, -, changed⟩ := outcomeOver_eq_ok_iff.mp made
  obtain ⟨document, named, held⟩ := lawful.read_ok _ _ _ readable
  simp only [named, held, Option.some.injEq, exists_eq_left', changed, decide_eq_false_iff_not,
    not_not]
  exact ⟨fun same => same ▸ rfl, fun same => (String.toByteArray_inj.mp same).symm⟩

private theorem act_run {arguments : List String} {options : CommandLine.Options} {state : σ}
    (asked : CommandLine.parse arguments = .run options) :
    act (CommandLine.run arguments) state =
      ((match (perform options.run state).1 with
        | .ok report => report
        | .error failure => .failure failure.message), (perform options.run state).2) := by
  unfold CommandLine.run
  rw [asked]
  dsimp only
  rw [act_bind]
  change act (match (perform options.run state).1 with
    | .ok report => pure report
    | .error failure => pure (.failure failure.message)) (perform options.run state).2 = _
  cases (perform options.run state).1 <;> rfl

/-- A check leaves all files as they are, and succeeds exactly if the preview is unchanged. -/
theorem run_check (lawful : view.Lawful) {project : Project} {state : σ}
    {arguments : List String} {options : CommandLine.Options}
    (asked : CommandLine.parse arguments = .run options) (mode : options.mode = .check)
    (loaded : (perform options.project state).1 = .ok project) :
    (act (CommandLine.run arguments) state).2 = state ∧
      ((act (CommandLine.run arguments) state).1.code = 0 ↔
        ∃ outcome, (perform project.preview state).1 = .ok outcome ∧
          outcome.changed = false) := by
  have performed : perform options.run state =
      perform (do
        if (← project.preview).changed then
          return .failure s!"'{project.document}' is out of date; run slashdoc to regenerate it"
        else return .success s!"'{project.document}' is up to date.\n") state := by
    unfold CommandLine.Options.run
    rw [perform_bind, (lawful.readOnly_project options).perform_eq state, loaded, mode]
  rw [perform_bind, (lawful.readOnly_preview project).perform_eq state] at performed
  rw [act_run asked, performed]
  cases (perform project.preview state).1 with
  | error failure => simp [CommandLine.Report.failure]
  | ok outcome =>
    cases unchanged : outcome.changed <;>
      simp [unchanged, CommandLine.Report.failure, CommandLine.Report.success]

private theorem check_iff_renewed_unchanged (lawful : view.Lawful) {project : Project}
    {state after : σ}
    {arguments : List String} {options : CommandLine.Options} {outcome : Outcome}
    (apart : view.Apart project state)
    (asked : CommandLine.parse arguments = .run options) (mode : options.mode = .check)
    (loaded : (perform options.project state).1 = .ok project)
    (done : perform project.regenerate state = (.ok outcome, after)) :
    (act (CommandLine.run arguments) state).1.code = 0 ↔
      ∀ document, view.file? state project.document = some document →
        view.bytes? after document = view.bytes? state document := by
  have shown := congrArg Prod.fst (preview_of_regenerate lawful apart done)
  obtain ⟨document, -, -, named, -, -, -, renewed, -⟩ := renewed_of_regenerate lawful apart done
  rw [(run_check lawful asked mode loaded).2, shown]
  simp only [Except.ok.injEq, exists_eq_left', unchanged_iff lawful shown, named,
    Option.some.injEq, forall_eq', renewed]
  exact eq_comm

theorem regenerate_of_steps (lawful : view.Lawful) {project : Project} {state saved after : σ}
    {outcome : Outcome} (shown : (perform project.preview state).1 = .ok outcome)
    (copied : act (Files.copy project.document project.backup) state = (.ok (), saved))
    (unmoved : (act (Files.read project.document) saved).1 =
      (act (Files.read project.document) state).1)
    (written : act (Files.write project.document outcome.document.toUTF8) saved =
      (.ok (), after)) :
    perform project.regenerate state = (.ok outcome, after) := by
  obtain ⟨registry, extracted, rendered⟩ := (fst_preview_eq_ok_iff lawful).mp shown
  have rendered' : (perform (project.renderOver registry) saved).1 = .ok outcome := by
    rw [fst_renderOver_eq_ok_iff lawful] at rendered ⊢
    rwa [unmoved]
  have possible := regeneration_perform lawful project state
  generalize perform project.regenerate state = ended at possible
  cases possible with
  | unextracted refused =>
    rw [extracted] at refused
    cases refused
  | uncopied _ refused =>
    rw [copied] at refused
    cases refused
  | unrendered extracted' copied' refused =>
    cases extracted.symm.trans extracted'
    cases copied.symm.trans copied'
    rw [rendered'] at refused
    cases refused
  | unwritten extracted' copied' rendered'' refused =>
    cases extracted.symm.trans extracted'
    cases copied.symm.trans copied'
    cases rendered'.symm.trans rendered''
    rw [written] at refused
    cases refused
  | written extracted' copied' rendered'' written' =>
    cases extracted.symm.trans extracted'
    cases copied.symm.trans copied'
    cases rendered'.symm.trans rendered''
    cases written.symm.trans written'
    rfl

end

/-- A regeneration of a document whose backup is another file. If it fails, it has at most
copied the document, and not even that if the source was refused or the copy failed. If it
succeeds, the backup holds the old document, and it gives what the preview had told. It fails
only if the preview does or an operation on the files is refused. The preview changes
nothing, and a check succeeds exactly if the document would keep its bytes. -/
theorem regenerate_atomic [Files (StateM σ)] {view : FileView σ File} (lawful : view.Lawful)
    (project : Project) (state : σ) (apart : view.Apart project state) :
    (∀ failure after, perform project.regenerate state = (.error failure, after) →
      view.OnlySaved project state after ∧
      ((∃ failure, (perform (Project.extract project.source project.settings) state).1 =
          .error failure) ∨
        (∃ cause, (act (Files.copy project.document project.backup) state).1 =
          .error cause) →
        after = state)) ∧
    (∀ outcome after, perform project.regenerate state = (.ok outcome, after) →
      view.Renewed project outcome.document state after ∧
      perform project.preview state = (.ok outcome, state)) ∧
    (∀ failure, (perform project.preview state).1 = .error failure →
      ∃ failure', (perform project.regenerate state).1 = .error failure') ∧
    (∀ outcome saved after, (perform project.preview state).1 = .ok outcome →
      act (Files.copy project.document project.backup) state = (.ok (), saved) →
      (act (Files.read project.document) saved).1 =
        (act (Files.read project.document) state).1 →
      act (Files.write project.document outcome.document.toUTF8) saved = (.ok (), after) →
      perform project.regenerate state = (.ok outcome, after)) ∧
    (perform project.preview state).2 = state ∧
    (∀ outcome, (perform project.preview state).1 = .ok outcome →
      (outcome.changed = false ↔
        ∃ document, view.file? state project.document = some document ∧
          view.bytes? state document = some outcome.document.toUTF8)) ∧
    (∀ arguments options, CommandLine.parse arguments = .run options →
      options.mode = .check → (perform options.project state).1 = .ok project →
      (act (CommandLine.run arguments) state).2 = state ∧
      ((act (CommandLine.run arguments) state).1.code = 0 ↔
        ∃ outcome, (perform project.preview state).1 = .ok outcome ∧
          outcome.changed = false) ∧
      ∀ outcome after, perform project.regenerate state = (.ok outcome, after) →
        ((act (CommandLine.run arguments) state).1.code = 0 ↔
          ∀ document, view.file? state project.document = some document →
            view.bytes? after document = view.bytes? state document)) := by
  refine ⟨?_, ?_, ?_, ?_, lawful.readOnly_preview project state, ?_, ?_⟩
  · intro failure after failed
    refine ⟨onlySaved_of_regenerate lawful apart failed, fun refused => ?_⟩
    rw [← untouched_of_refused lawful refused, failed]
  · intro outcome after done
    exact ⟨renewed_of_regenerate lawful apart done, preview_of_regenerate lawful apart done⟩
  · intro failure refused
    rcases ended : perform project.regenerate state with ⟨failure' | outcome, after⟩
    · exact ⟨failure', rfl⟩
    · rw [preview_of_regenerate lawful apart ended] at refused
      simp at refused
  · intro outcome saved after
    exact regenerate_of_steps lawful
  · intro outcome shown
    exact unchanged_iff lawful shown
  · intro arguments options asked mode loaded
    obtain ⟨kept, succeeds⟩ := run_check lawful asked mode loaded
    exact ⟨kept, succeeds, fun outcome after done =>
      check_iff_renewed_unchanged lawful apart asked mode loaded done⟩

/-- A disk with a document that its source has outgrown. -/
def staleDisk : Disk :=
  (Disk.empty.put "index.js"
    "SlashCommandParser.addCommandObject(SlashCommand.fromProps(\x7bname:'a',\n".toUTF8).put
    "README.md" "## Requirements\nNone\n## C\n### Ungrouped\n#### `/a`\n```\n1\n```\n".toUTF8

theorem file?_staleDisk :
    Disk.view.file? staleDisk "./index.js" = some ⟨.above 0, ["index.js"]⟩ ∧
    Disk.view.file? staleDisk "./README.md" = some ⟨.above 0, ["README.md"]⟩ ∧
    Disk.view.file? staleDisk "./README.bak.md" = some ⟨.above 0, ["README.bak.md"]⟩ := by
  decide +kernel

theorem regenerate_atomic_staleDisk :
    Disk.view.Apart (.inDirectory "." .standard) staleDisk ∧
    (∃ outcome after,
      perform (Project.inDirectory "." .standard).regenerate staleDisk = (.ok outcome, after) ∧
      Disk.view.Renewed (.inDirectory "." .standard) outcome.document staleDisk after) ∧
    (act (CommandLine.run ["--check"]) staleDisk).1.code ≠ 0 := by
  let options : CommandLine.Options := ⟨".", none, none, none, none, .check⟩
  have apart : Disk.view.Apart (.inDirectory "." .standard) staleDisk := by
    obtain ⟨-, document, backup⟩ := file?_staleDisk
    intro file named
    have same : file = _ := Option.some.inj (named.symm.trans document)
    rw [same]
    exact ne_of_eq_of_ne backup (by decide)
  have asked : CommandLine.parse ["--check"] = .run options := by decide +kernel
  have loaded : (perform options.project staleDisk).1 = .ok (.inDirectory "." .standard) := by
    decide +kernel
  have shown : (perform (Project.inDirectory "." .standard).regenerate staleDisk).1.toOption.map
      (·.changed) = some true := by decide +kernel
  obtain ⟨-, succeeds, -, -, -, -, checks⟩ :=
    regenerate_atomic Disk.dependable.toLawful (.inDirectory "." .standard) staleDisk apart
  rcases ended : perform (Project.inDirectory "." .standard).regenerate staleDisk
    with ⟨failure | outcome, after⟩
  · simp [ended, Except.toOption] at shown
  · have changed : outcome.changed = true := by simpa [ended, Except.toOption] using shown
    obtain ⟨renewed, previewed⟩ := succeeds outcome after ended
    refine ⟨apart, ⟨outcome, after, rfl, renewed⟩, ?_⟩
    rw [Ne, (checks _ options asked rfl loaded).2.1, previewed]
    simp [changed]

end CommandReference
