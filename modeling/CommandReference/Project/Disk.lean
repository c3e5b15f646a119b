import CommandReference.Project.Files

/-! A disk as a value: files and directories by their places. A path is followed name by
name, and every name but the last has to be that of a directory. The directories above
the current one are there, though nothing else is known of them at first. -/
namespace CommandReference

/-- Where the names of a place begin: at the root, or so many levels above the current
directory. -/
inductive Base where
  | root
  | above (levels : Nat)
  deriving Repr, DecidableEq, Inhabited

structure Place where
  base : Base
  names : List String
  deriving Repr, DecidableEq, Inhabited

namespace Place

def current : Place := ⟨.above 0, []⟩

/-- The directory that holds a place; the root holds itself. -/
def parent (place : Place) : Place :=
  match place.base, place.names with
  | .root, [] => place
  | .above levels, [] => ⟨.above (levels + 1), []⟩
  | _, names => { place with names := names.dropLast }

def step (name : String) (place : Place) : Place :=
  match name with
  | "." => place
  | ".." => place.parent
  | _ => { place with names := place.names ++ [name] }

end Place

inductive DiskEntry where
  | file (bytes : ByteArray)
  | directory
  deriving Inhabited

structure Disk where
  entries : List (Place × DiskEntry)
  deriving Inhabited

namespace Disk

def empty : Disk := ⟨[]⟩

/-- The entry at a place; the root and the directories above are always there. -/
def entry? (disk : Disk) (place : Place) : Option DiskEntry :=
  if place.names = [] then some .directory else disk.entries.lookup place

/-- The entry at a place. A name has at most 255 bytes. -/
def find (disk : Disk) (place : Place) : Except FileError (Option DiskEntry) :=
  if place.names.getLast?.any (255 < ·.utf8ByteSize) then throw .tooLong
  else return disk.entry? place

def set (place : Place) (entry : DiskEntry) (disk : Disk) : Disk :=
  if (disk.entries.lookup place).isSome then
    ⟨disk.entries.map fun (other, old) => (other, if other = place then entry else old)⟩
  else ⟨disk.entries ++ [(place, entry)]⟩

def erase (place : Place) (disk : Disk) : Disk :=
  ⟨disk.entries.filter fun (other, _) =>
    other.base ≠ place.base ∨ other.names.take place.names.length ≠ place.names⟩

def partsOf : List Char → List (List Char)
  | [] => [[]]
  | c :: later =>
    if c = '/' then [] :: partsOf later
    else
      match partsOf later with
      | [] => [[c]]
      | part :: others => (c :: part) :: others

def namesOf (path : String) : List String :=
  ((partsOf path.toList).filter (· ≠ [])).map String.ofList

def startOf (path : String) : Place :=
  if path.toList.head? = some '/' then ⟨.root, []⟩ else .current

/-- Follows names from a directory. The last one need not exist. -/
def follow (disk : Disk) (place : Place) : List String → Except FileError Place
  | [] => return place
  | [name] => return place.step name
  | name :: later => do
    match ← disk.find (place.step name) with
    | some .directory => disk.follow (place.step name) later
    | some (.file _) => throw .notDirectory
    | none => throw .notFound

/-- A path that ends in a slash can only be that of a directory. -/
def endsInSlash (path : String) : Bool := path.toList.getLast? = some '/'

/-- The place of a path. A path has fewer than 4096 bytes. -/
def locate (disk : Disk) (path : String) : Except FileError Place :=
  if path.toList.contains '\x00' then throw .nulInPath
  else if path = "" then throw .notFound
  else if 4096 ≤ path.utf8ByteSize then throw .tooLong
  else disk.follow (startOf path) (namesOf path)

def read (disk : Disk) (path : String) : Except FileError ByteArray := do
  match ← disk.find (← disk.locate path) with
  | some (.file bytes) => if endsInSlash path then throw .notDirectory else return bytes
  | some .directory => throw .isDirectory
  | none => throw .notFound

def write (disk : Disk) (path : String) (bytes : ByteArray) : Except FileError Disk := do
  let place ← disk.locate path
  if endsInSlash path then throw .isDirectory
  match ← disk.find place with
  | some .directory => throw .isDirectory
  | _ => return disk.set place (.file bytes)

def copy (disk : Disk) (source target : String) : Except FileError Disk := do
  match disk.read source with
  | .error error => throw (if error = .isDirectory then .notRegular else error)
  | .ok _ =>
    let emptied ← disk.write target .empty
    emptied.write target (← emptied.read source)

def isPresent (disk : Disk) (path : String) : Bool :=
  match disk.locate path >>= disk.find with
  | .ok (some .directory) => true
  | .ok (some (.file _)) => !endsInSlash path
  | _ => false

def makeAlong (disk : Disk) (place : Place) : List String → Disk
  | [] => disk
  | name :: later =>
    let next := place.step name
    makeAlong (if (disk.entry? next).isSome then disk else disk.set next .directory) next later

def makeDirectory (path : String) (disk : Disk) : Disk :=
  disk.makeAlong (startOf path) (namesOf path)

def put (path : String) (bytes : ByteArray) (disk : Disk) : Disk :=
  let names := namesOf path
  let place := names.foldl (fun place name => place.step name) (startOf path)
  (disk.makeAlong (startOf path) names.dropLast).set place (.file bytes)

def remove (path : String) (disk : Disk) : Disk :=
  match disk.locate path with
  | .ok place => disk.erase place
  | .error _ => disk

def files (disk : Disk) : List (List String × ByteArray) :=
  disk.entries.filterMap fun (place, entry) =>
    match place.base, entry with
    | .above 0, .file bytes => some (place.names, bytes)
    | _, _ => none

/-- The files whose contents differ on two disks, with what the second has for them. -/
def changes (before after : Disk) : List (List String × Option ByteArray) :=
  (after.files.filter fun (place, bytes) => before.files.lookup place != some bytes).map
    (fun (place, bytes) => (place, some bytes)) ++
  (before.files.filter fun (place, _) => (after.files.lookup place).isNone).map
    (fun (place, _) => (place, none))

def update (operation : Disk → Except FileError Disk) : StateM Disk (Except FileError Unit) :=
  fun disk =>
    match operation disk with
    | .ok next => (.ok (), next)
    | .error error => (.error error, disk)

instance : Files (StateM Disk) where
  read path := fun disk => (disk.read path, disk)
  write path bytes := update (·.write path bytes)
  copy source target := update (·.copy source target)
  isPresent path := fun disk => (disk.isPresent path, disk)

end Disk

end CommandReference
