import CommandReference.Proofs.Document.ShownTexts
import CommandReference.Proofs.Project.Atomicity
import CommandReference.Proofs.Source.Headings

/-! Two regenerations in a row. The second one reads the source that the first one read and the
document that it wrote. -/
namespace CommandReference
open Text Document

/-- A second outcome is unchanged exactly if every heading leads to its command. -/
theorem outcomeOver_again_iff {settings : Settings} (valid : settings.validate = .ok settings)
    (presentable : Presentable settings) {registry : Registry} (fresh : registry.Fresh)
    (unobtrusive : Unobtrusive settings registry) {old : String} (ended : Ended old.toList)
    {outcome : Outcome} (first : Project.outcomeOver settings registry old = .ok outcome) :
    (∃ again, Project.outcomeOver settings registry outcome.document = .ok again ∧
      again.changed = false) ↔ registry.Addressable := by
  obtain ⟨recovered, done, -, shown, -⟩ := outcomeOver_eq_ok_iff.mp first
  obtain ⟨lines, kept, prose⟩ := prose_of_recover ended done
  rw [← rereading_iff valid presentable fresh unobtrusive (extended_of_recover done) prose,
    ← kept, ← shown]
  constructor
  · rintro ⟨again, made, unchanged⟩
    obtain ⟨next, reread, -, rendered, changed⟩ := outcomeOver_eq_ok_iff.mp made
    refine ⟨next, reread, ?_⟩
    rw [← rendered]
    simpa [unchanged] using changed
  · rintro ⟨next, reread, same⟩
    exact ⟨⟨next, outcome.document, false⟩,
      outcomeOver_eq_ok_iff.mpr ⟨next, reread, rfl, same.symm, by simp⟩, rfl⟩

variable {σ File : Type}

/-- The source, the document and the backup are three files. -/
structure FileView.Separate (view : FileView σ File) (project : Project) (state : σ) : Prop where
  backup : view.Apart project state
  source : ∀ file, view.file? state project.source = some file →
    view.file? state project.document ≠ some file ∧ view.file? state project.backup ≠ some file

section

variable [Files (StateM σ)] {view : FileView σ File} (dependable : view.Dependable)
include dependable

/-- On dependable files a regeneration does what the preview shows. -/
theorem exists_regenerate {project : Project} {state : σ} {outcome : Outcome} {backup : File}
    (apart : view.Apart project state) (named : view.file? state project.backup = some backup)
    (shown : (perform project.preview state).1 = .ok outcome) :
    ∃ after, perform project.regenerate state = (.ok outcome, after) := by
  have lawful := dependable.toLawful
  obtain ⟨registry, -, rendered⟩ := (fst_preview_eq_ok_iff lawful).mp shown
  obtain ⟨old, readable, -⟩ := (fst_renderOver_eq_ok_iff lawful).mp rendered
  have copied : act (Files.copy project.document project.backup) state = (.ok (), _) :=
    Prod.ext (dependable.copy_file _ _ _ _ _ readable named) rfl
  obtain ⟨document, target, bytes, again, found, -, other, held, replaces⟩ :=
    copied_backup lawful apart copied
  have still := (congrFun replaces.named project.document).trans found
  have kept := (replaces.others _ other).trans held
  have unmoved := (dependable.read_file _ _ _ _ still kept).trans again.symm
  have written : act (Files.write project.document outcome.document.toUTF8)
      (act (Files.copy project.document project.backup) state).2 = (.ok (), _) :=
    Prod.ext (dependable.write_file _ _ _ _ still) rfl
  exact ⟨_, regenerate_of_steps lawful shown copied unmoved written⟩

/-- After a regeneration the preview is made from the same source and the new document. -/
theorem fst_preview_renewed {project : Project} {state after : σ} {registry : Registry}
    {text : String} (separate : view.Separate project state)
    (extracted : (perform (Project.extract project.source project.settings) state).1 =
      .ok registry)
    (renewed : view.Renewed project text state after) (again : Outcome) :
    (perform project.preview after).1 = .ok again ↔
      Project.outcomeOver project.settings registry text = .ok again := by
  have lawful := dependable.toLawful
  obtain ⟨document, backup, old, named, kept, -, -, written, names, others⟩ := renewed
  obtain ⟨source, readable, declared⟩ := (fst_extract_eq_ok_iff lawful).mp extracted
  obtain ⟨file, found, held⟩ := lawful.read_ok _ _ _ readable
  have rest : (perform (Project.extract project.source project.settings) after).1 =
      .ok registry := by
    refine (fst_extract_eq_ok_iff lawful).mpr ⟨source, ?_, declared⟩
    apply dependable.read_file _ _ file _ (by rw [names, found])
    rw [others file, held]
    · rintro rfl
      exact (separate.source _ found).1 named
    · rintro rfl
      exact (separate.source _ found).2 kept
  have reread : (act (Files.read project.document) after).1 = .ok text.toUTF8 :=
    dependable.read_file _ _ _ _ (by rw [names, named]) written
  rw [fst_preview_eq_ok_iff lawful, rest]
  simp only [Except.ok.injEq, exists_eq_left', fst_renderOver_eq_ok_iff lawful, reread]
  constructor
  · rintro ⟨other, same, made⟩
    rw [String.toByteArray_inj.mp same]
    exact made
  · intro made
    exact ⟨text, rfl, made⟩

end

private theorem standard_valid : Settings.standard.validate = .ok .standard := by decide +kernel

private theorem standard_headable : Headable Settings.standard.defaultGroup := by decide +kernel

private theorem standard_unmixed : Unmixed .standard := by
  simp [Unmixed, Settings.standard]

/-- A second regeneration, with the standard settings and a document of whole lines, succeeds and
leaves the document as it is exactly if every heading leads to its command: names without
backticks, and no name twice in a group. The texts of the source hold no fence and no heading, and
no default value becomes a fence when it is shown. -/
theorem regenerate_again_iff [Files (StateM σ)] {view : FileView σ File}
    (dependable : view.Dependable) {project : Project} (standard : project.settings = .standard)
    {state after : σ} (separate : view.Separate project state) {registry : Registry}
    (extracted : (perform (Project.extract project.source project.settings) state).1 =
      .ok registry)
    (calm : CalmTexts .standard registry) (unglued : Unglued registry) {old : String}
    (held : (perform (readText project.document) state).1 = .ok old) (ended : Ended old.toList)
    {outcome : Outcome} (done : perform project.regenerate state = (.ok outcome, after)) :
    (∃ again final, perform project.regenerate after = (.ok again, final) ∧
      again.changed = false ∧ again.document = outcome.document ∧
      ∀ file, view.file? after project.document = some file →
        view.bytes? final file = view.bytes? after file) ↔ registry.Addressable := by
  have lawful := dependable.toLawful
  have renewed := renewed_of_regenerate lawful separate.backup done
  have preview := fst_preview_renewed dependable separate extracted renewed
  obtain ⟨document, backup, -, named, target, -, -, written, names, -⟩ := renewed
  have apart : view.Apart project after := by
    intro file
    rw [names]
    exact separate.backup file
  have fresh : registry.Fresh := by
    obtain ⟨source, -, declared⟩ := (fst_extract_eq_ok_iff lawful).mp extracted
    rw [standard] at declared
    exact Registry.fresh_ofSource standard_headable declared
  have first : Project.outcomeOver .standard registry old = .ok outcome := by
    have shown := congrArg Prod.fst (preview_of_regenerate lawful separate.backup done)
    obtain ⟨other, same, rendered⟩ := (fst_preview_eq_ok_iff lawful).mp shown
    obtain ⟨text, readable, made⟩ := (fst_renderOver_eq_ok_iff lawful).mp rendered
    rw [extracted, Except.ok.injEq] at same
    rw [fst_readText_eq_ok_iff, readable, Except.ok.injEq] at held
    rw [same, ← String.toByteArray_inj.mp held, ← standard]
    exact made
  have unobtrusive := unobtrusive_of_calmTexts standard_unmixed calm unglued
  rw [standard] at preview
  rw [← outcomeOver_again_iff standard_valid standard_presentable fresh unobtrusive ended first]
  constructor
  · rintro ⟨again, final, run, unchanged, -⟩
    have shown := congrArg Prod.fst (preview_of_regenerate lawful apart run)
    exact ⟨again, (preview again).mp shown, unchanged⟩
  · rintro ⟨again, made, unchanged⟩
    obtain ⟨final, run⟩ := exists_regenerate dependable apart (by rw [names, target])
      ((preview again).mpr made)
    have same : again.document = outcome.document := by
      obtain ⟨-, -, -, -, changed⟩ := outcomeOver_eq_ok_iff.mp made
      simpa [unchanged] using changed
    refine ⟨again, final, run, unchanged, same, fun file found => ?_⟩
    obtain ⟨document', -, -, named', -, -, -, written', -⟩ := renewed_of_regenerate lawful apart run
    rw [names, named, Option.some.injEq] at found named'
    subst found named'
    rw [written', written, same]

theorem regenerate_again_staleDisk :
    ∃ outcome after again final,
      perform (Project.inDirectory "." .standard).regenerate staleDisk = (.ok outcome, after) ∧
      perform (Project.inDirectory "." .standard).regenerate after = (.ok again, final) ∧
      again.changed = false ∧ again.document = outcome.document := by
  obtain ⟨source, document, backup⟩ := file?_staleDisk
  have separate : Disk.view.Separate (.inDirectory "." .standard) staleDisk := by
    constructor
    · intro file named
      have same : file = _ := Option.some.inj (named.symm.trans document)
      rw [same]
      exact ne_of_eq_of_ne backup (by decide)
    · intro file named
      have same : file = _ := Option.some.inj (named.symm.trans source)
      rw [same]
      exact ⟨ne_of_eq_of_ne document (by decide), ne_of_eq_of_ne backup (by decide)⟩
  have extracted : (perform (Project.extract "./index.js" .standard) staleDisk).1 =
      .ok ⟨[⟨"Ungrouped", [.ofName "a"]⟩]⟩ := by decide +kernel
  have held : (perform (readText "./README.md") staleDisk).1 =
      .ok "## Requirements\nNone\n## C\n### Ungrouped\n#### `/a`\n```\n1\n```\n" := by
    decide +kernel
  have shown : (perform (Project.inDirectory "." .standard).regenerate staleDisk).1.isOk = true := by
    decide +kernel
  rcases ended : perform (Project.inDirectory "." .standard).regenerate staleDisk
    with ⟨failure | outcome, after⟩
  · simp [ended, Except.isOk, Except.toBool] at shown
  · obtain ⟨again, final, run, unchanged, same, -⟩ := (regenerate_again_iff Disk.dependable rfl
      separate extracted (by decide +kernel) (by decide +kernel) held (by decide +kernel)
      ended).mpr (by decide +kernel)
    exact ⟨outcome, after, again, final, rfl, run, unchanged, same⟩

/-- A disk whose source registers a name with a backtick. -/
def backtickDisk : Disk :=
  (Disk.empty.put "index.js"
    "SlashCommandParser.addCommandObject(SlashCommand.fromProps(\x7bname:'a`b',\n".toUTF8).put
    "README.md" "# Old\n".toUTF8

/-- The heading that the first regeneration writes leads the second one to another name. -/
theorem regenerate_again_backtickDisk :
    (perform (Project.inDirectory "." .standard).regenerate backtickDisk).1.isOk = true ∧
    (perform (Project.inDirectory "." .standard).regenerate
      (perform (Project.inDirectory "." .standard).regenerate backtickDisk).2).1 =
        .error (.unknownCommand ⟨"Ungrouped", "a"⟩) := by
  decide +kernel

end CommandReference
