import CommandReference.Project.CommandLine

/-! The program on the files of the operating system. -/
namespace CommandReference

/-- The number of an error may come with its sign turned. -/
def FileError.ofCode (code : UInt32) (details : String) : FileError :=
  match (min code (0 - code)).toNat with
  | 2 => .notFound
  | 20 => .notDirectory
  | 21 => .isDirectory
  | 36 => .tooLong
  | 13 => .system "Permission denied" 13
  | other => .system details other

def FileError.ofError : IO.Error → FileError
  | .noFileOrDirectory _ code details => .ofCode code details
  | .permissionDenied _ code details => .ofCode code details
  | .inappropriateType _ code details => .ofCode code details
  | .resourceExhausted _ code details => .ofCode code details
  | .invalidArgument _ code details => .ofCode code details
  | .alreadyExists _ code details => .ofCode code details
  | .otherError code details => .ofCode code details
  | error => .system (toString error) 5

def attempt {α : Type} (operation : IO α) : IO (Except FileError α) := do
  match ← operation.toBaseIO with
  | .ok value => return .ok value
  | .error error => return .error (.ofError error)

def readFile (path : String) : IO (Except FileError ByteArray) :=
  attempt (IO.FS.readBinFile path)

def copyFile (source target : String) : IO (Except FileError Unit) := do
  match ← readFile source with
  | .error error => return .error (if error = .isDirectory then .notRegular else error)
  | .ok _ => attempt do
    IO.FS.writeBinFile target .empty
    IO.FS.writeBinFile target (← IO.FS.readBinFile source)

instance : Files IO where
  read := readFile
  write path bytes := attempt (IO.FS.writeBinFile path bytes)
  copy := copyFile
  isPresent path := do ((← IO.currentDir) / path).pathExists

end CommandReference

def main (arguments : List String) : IO UInt32 := do
  let report ← CommandReference.CommandLine.run arguments
  IO.print report.output
  IO.eprint report.errors
  return report.code
