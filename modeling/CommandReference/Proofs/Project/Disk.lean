import CommandReference.Project.Disk
import CommandReference.Proofs.Project.FileSystem

/-! A disk is a file system: its files are the places that a path can name and that hold no
directory. To write a file changes the entry at its place and no name. -/
namespace CommandReference.Disk

/-- Whether a file is at a place or could be put there. -/
def takesFile (disk : Disk) (place : Place) : Bool :=
  match disk.find place with
  | .ok (some .directory) => false
  | .ok _ => true
  | .error _ => false

/-- The place of the file that a path names. -/
def file? (disk : Disk) (path : String) : Option Place :=
  if endsInSlash path then none else (disk.locate path).toOption.filter disk.takesFile

def bytes? (disk : Disk) (place : Place) : Option ByteArray :=
  match disk.entry? place with
  | some (.file bytes) => some bytes
  | _ => none

def view : FileView Disk Place := ⟨file?, bytes?⟩

theorem find_eq_ok_iff {disk : Disk} {place : Place} {entry : Option DiskEntry} :
    disk.find place = .ok entry ↔
      place.names.getLast?.any (255 < ·.utf8ByteSize) = false ∧ disk.entry? place = entry := by
  unfold find
  split <;> simp_all [throw, throwThe, MonadExceptOf.throw, pure, Except.pure]

theorem takesFile_iff {disk : Disk} {place : Place} :
    disk.takesFile place = true ↔
      ∃ entry, disk.find place = .ok entry ∧ entry ≠ some .directory := by
  unfold takesFile
  split <;> simp_all

theorem file?_eq_some_iff {disk : Disk} {path : String} {place : Place} :
    disk.file? path = some place ↔
      endsInSlash path = false ∧ disk.locate path = .ok place ∧ disk.takesFile place = true := by
  unfold file?
  cases disk.locate path with
  | error cause => simp [Except.toOption]
  | ok found =>
    cases endsInSlash path with
    | true => simp
    | false =>
      simp only [Except.toOption, Option.filter_some, Bool.false_eq_true, if_false]
      split <;> grind

theorem read_eq_ok_iff {disk : Disk} {path : String} {bytes : ByteArray} :
    disk.read path = .ok bytes ↔
      ∃ place, disk.file? path = some place ∧ disk.bytes? place = some bytes := by
  simp only [file?_eq_some_iff, takesFile_iff, bytes?]
  unfold read
  cases disk.locate path with
  | error cause => simp [bind, Except.bind]
  | ok place =>
    cases found : disk.find place with
    | error cause => simp [bind, Except.bind, found]
    | ok entry =>
      have held := (find_eq_ok_iff.mp found).2
      rcases entry with _ | _ | _ <;> cases endsInSlash path <;>
        simp_all [bind, Except.bind, throw, throwThe, MonadExceptOf.throw, pure, Except.pure]

theorem write_eq_ok_iff {disk after : Disk} {path : String} {bytes : ByteArray} :
    disk.write path bytes = .ok after ↔
      ∃ place, disk.file? path = some place ∧ after = disk.set place (.file bytes) := by
  simp only [file?_eq_some_iff, takesFile_iff]
  unfold write
  cases disk.locate path with
  | error cause => simp [bind, Except.bind]
  | ok place =>
    cases found : disk.find place with
    | error cause =>
      cases endsInSlash path <;>
        simp_all [bind, Except.bind, throw, throwThe, MonadExceptOf.throw]
    | ok entry =>
      rcases entry with _ | _ | _ <;> cases endsInSlash path <;>
        simp_all [bind, Except.bind, throw, throwThe, MonadExceptOf.throw, pure, Except.pure,
          @eq_comm _ after]

theorem write_of_file? {disk : Disk} {path : String} {place : Place}
    (named : disk.file? path = some place) (bytes : ByteArray) :
    disk.write path bytes = .ok (disk.set place (.file bytes)) :=
  write_eq_ok_iff.mpr ⟨place, named, rfl⟩

private theorem lookup_replaced (entries : List (Place × DiskEntry)) (place other : Place)
    (entry : DiskEntry) :
    (entries.map fun item => (item.1, if item.1 = place then entry else item.2)).lookup other =
      if other = place then (entries.lookup other).map fun _ => entry
      else entries.lookup other := by
  induction entries with
  | nil => simp
  | cons item later ih =>
    obtain ⟨key, old⟩ := item
    simp only [List.map_cons, List.lookup_cons, ih]
    by_cases here : other = key
    · subst here
      by_cases same : other = place <;> simp [same]
    · simp [beq_false_of_ne here]

theorem entry?_set (disk : Disk) {place : Place} (inside : place.names ≠ []) (entry : DiskEntry)
    (other : Place) :
    entry? (disk.set place entry) other =
      if other = place then some entry else disk.entry? other := by
  unfold entry? set
  by_cases top : other.names = []
  · have apart : other ≠ place := fun same => inside (same ▸ top)
    simp [top, apart]
  · simp only [top, if_false]
    cases held : disk.entries.lookup place with
    | some old =>
      simp only [Option.isSome_some, if_true, lookup_replaced]
      by_cases same : other = place <;> simp [same, held]
    | none =>
      simp only [Option.isSome_none, Bool.false_eq_true, if_false, List.lookup_append]
      by_cases same : other = place
      · simp [same, held]
      · simp [same, List.lookup_cons, beq_false_of_ne same]

private theorem follow_cons_cons_eq_ok_iff {disk : Disk} {start goal : Place} {name next : String}
    {rest : List String} :
    disk.follow start (name :: next :: rest) = .ok goal ↔
      disk.find (start.step name) = .ok (some .directory) ∧
        disk.follow (start.step name) (next :: rest) = .ok goal := by
  rw [follow]
  · cases disk.find (start.step name) with
    | error cause => simp [bind, Except.bind]
    | ok entry =>
      rcases entry with _ | _ | _ <;>
        simp [bind, Except.bind, throw, throwThe, MonadExceptOf.throw]
  · simp

section

variable {disk : Disk} {place : Place} (takes : disk.takesFile place = true)
include takes

theorem names_ne_nil : place.names ≠ [] := by
  intro top
  obtain ⟨entry, found, other⟩ := takesFile_iff.mp takes
  apply other
  rw [← (find_eq_ok_iff.mp found).2, entry?, if_pos top]

private theorem entry?_ne_directory : disk.entry? place ≠ some .directory := by
  obtain ⟨entry, found, other⟩ := takesFile_iff.mp takes
  rwa [(find_eq_ok_iff.mp found).2]

theorem find_set_directory_iff (bytes : ByteArray) (other : Place) :
    (disk.set place (.file bytes)).find other = .ok (some .directory) ↔
      disk.find other = .ok (some .directory) := by
  rw [find_eq_ok_iff, find_eq_ok_iff, entry?_set disk (names_ne_nil takes)]
  by_cases same : other = place
  · simp [same, entry?_ne_directory takes]
  · simp [same]

theorem takesFile_set (bytes : ByteArray) (other : Place) :
    (disk.set place (.file bytes)).takesFile other = disk.takesFile other := by
  rw [Bool.eq_iff_iff, takesFile_iff, takesFile_iff]
  have directory := find_set_directory_iff takes bytes other
  simp only [find_eq_ok_iff] at directory ⊢
  grind

private theorem follow_set_eq_ok_iff (bytes : ByteArray) (names : List String)
    (start goal : Place) :
    (disk.set place (.file bytes)).follow start names = .ok goal ↔
      disk.follow start names = .ok goal := by
  induction names generalizing start with
  | nil => rfl
  | cons name later ih =>
    cases later with
    | nil => rfl
    | cons next rest =>
      simp only [follow_cons_cons_eq_ok_iff, find_set_directory_iff takes, ih]

private theorem locate_set_eq_ok_iff (bytes : ByteArray) (path : String) (goal : Place) :
    (disk.set place (.file bytes)).locate path = .ok goal ↔ disk.locate path = .ok goal := by
  unfold locate
  simp only [apply_ite (· = Except.ok goal), follow_set_eq_ok_iff takes]

theorem replaces_set (bytes : ByteArray) :
    view.Replaces place bytes disk (disk.set place (.file bytes)) where
  named := by
    ext path goal
    simp only [view, file?_eq_some_iff, locate_set_eq_ok_iff takes, takesFile_set takes]
  written := by simp [view, bytes?, entry?_set disk (names_ne_nil takes)]
  others := by
    intro other apart
    simp [view, bytes?, entry?_set disk (names_ne_nil takes), apart]

end

/-- The target is emptied before the source is read for the copy. -/
theorem copy_eq_ok_iff {disk after : Disk} {source target : String} :
    disk.copy source target = .ok after ↔
      ∃ bytes place kept, disk.read source = .ok bytes ∧ disk.file? target = some place ∧
        (disk.set place (.file .empty)).read source = .ok kept ∧
        after = (disk.set place (.file .empty)).set place (.file kept) := by
  unfold copy
  cases disk.read source with
  | error cause => simp [throw, throwThe, MonadExceptOf.throw]
  | ok bytes =>
    cases named : disk.file? target with
    | none =>
      cases written : disk.write target .empty with
      | error cause => simp [bind, Except.bind]
      | ok emptied =>
        obtain ⟨place, found, -⟩ := write_eq_ok_iff.mp written
        simp [named] at found
    | some place =>
      have renamed := (replaces_set (file?_eq_some_iff.mp named).2.2 .empty).named
      rw [write_of_file? named]
      cases again : (disk.set place (.file .empty)).read source with
      | error cause => simp [bind, Except.bind, again]
      | ok kept =>
        have still : (disk.set place (.file .empty)).file? target = some place :=
          (congrFun renamed target).trans named
        simp [bind, Except.bind, again, write_eq_ok_iff, still]

private theorem replaces_of_write {disk after : Disk} {path : String} {bytes : ByteArray}
    (done : disk.write path bytes = .ok after) :
    ∃ place, disk.file? path = some place ∧ view.Replaces place bytes disk after := by
  obtain ⟨place, named, rfl⟩ := write_eq_ok_iff.mp done
  exact ⟨place, named, replaces_set (file?_eq_some_iff.mp named).2.2 bytes⟩

private theorem replaces_of_copy {disk after : Disk} {source target : String}
    (done : disk.copy source target = .ok after) :
    ∃ bytes place, disk.read source = .ok bytes ∧ disk.file? target = some place ∧
      (disk.file? source ≠ some place → view.Replaces place bytes disk after) := by
  obtain ⟨bytes, place, kept, readable, named, again, rfl⟩ := copy_eq_ok_iff.mp done
  refine ⟨bytes, place, readable, named, fun apart => ?_⟩
  have takes := (file?_eq_some_iff.mp named).2.2
  have emptied := replaces_set takes .empty
  have filled := replaces_set ((takesFile_set takes .empty place).trans takes) kept
  have same : kept = bytes := by
    obtain ⟨origin, found, held⟩ := read_eq_ok_iff.mp readable
    obtain ⟨origin', found', held'⟩ := read_eq_ok_iff.mp again
    have : origin' = origin :=
      Option.some.inj ((found'.symm.trans (congrFun emptied.named source)).trans found)
    subst this
    have elsewhere : origin' ≠ place := fun there => apart (there ▸ found)
    exact Option.some.inj ((held'.symm.trans (emptied.others _ elsewhere)).trans held)
  exact same ▸ emptied.again filled

private theorem exists_copy {disk : Disk} {source target : String} {bytes : ByteArray}
    {place : Place}
    (readable : disk.read source = .ok bytes) (named : disk.file? target = some place) :
    ∃ after, disk.copy source target = .ok after := by
  obtain ⟨origin, found, held⟩ := read_eq_ok_iff.mp readable
  have emptied := replaces_set (file?_eq_some_iff.mp named).2.2 .empty
  have found' := (congrFun emptied.named source).trans found
  obtain ⟨kept, held'⟩ : ∃ kept, (disk.set place (.file .empty)).bytes? origin = some kept := by
    by_cases same : origin = place
    · rw [same]
      exact ⟨.empty, emptied.written⟩
    · exact ⟨bytes, (emptied.others origin same).trans held⟩
  exact ⟨_, copy_eq_ok_iff.mpr
    ⟨bytes, place, kept, readable, named, read_eq_ok_iff.mpr ⟨origin, found', held'⟩, rfl⟩⟩

theorem act_update (operation : Disk → Except FileError Disk) (disk : Disk) :
    act (update operation) disk =
      match operation disk with
      | .ok next => (.ok (), next)
      | .error cause => (.error cause, disk) := rfl

theorem act_update_error {operation : Disk → Except FileError Disk} {disk : Disk}
    {cause : FileError} (failed : (act (update operation) disk).1 = .error cause) :
    (act (update operation) disk).2 = disk := by
  rw [act_update] at failed ⊢
  cases ended : operation disk <;> simp_all

theorem act_update_ok_iff {operation : Disk → Except FileError Disk} {disk : Disk} :
    (act (update operation) disk).1 = .ok () ↔
      operation disk = .ok (act (update operation) disk).2 := by
  rw [act_update]
  cases operation disk <;> simp

theorem dependable : view.Dependable where
  present_state _ _ := rfl
  read_state _ _ := rfl
  read_ok _ _ _ done := read_eq_ok_iff.mp done
  write_error _ _ _ _ failed := act_update_error failed
  write_ok _ _ _ done := replaces_of_write (act_update_ok_iff.mp done)
  copy_error _ _ _ _ failed := act_update_error failed
  copy_ok _ _ _ done := replaces_of_copy (act_update_ok_iff.mp done)
  read_file _ _ file _ named held := read_eq_ok_iff.mpr ⟨file, named, held⟩
  write_file path bytes disk place named := by
    show (act (update (·.write path bytes)) disk).1 = .ok ()
    rw [act_update, write_of_file? named]
  copy_file source target disk bytes place readable named := by
    obtain ⟨after, done⟩ := exists_copy readable named
    show (act (update (·.copy source target)) disk).1 = .ok ()
    rw [act_update, done]

end CommandReference.Disk
