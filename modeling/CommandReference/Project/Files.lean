/-! Files as a run sees them: operations by path that succeed or fail with a cause. They
are given for any monad, so that the same run works on real files and on a disk that is
a value. -/
namespace CommandReference

inductive FileError where
  | system (text : String) (code : Nat)
  | notText
  | notRegular
  | nulInPath
  deriving Repr, DecidableEq

namespace FileError

def notFound : FileError := .system "No such file or directory" 2

def notDirectory : FileError := .system "Not a directory" 20

def isDirectory : FileError := .system "Is a directory" 21

def tooLong : FileError := .system "File name too long" 36

def message : FileError → String
  | system text code => s!"{text} (os error {code})"
  | notText => "stream did not contain valid UTF-8"
  | notRegular => "the source path is neither a regular file nor a symlink to a regular file"
  | nulInPath => "file name contained an unexpected NUL byte"

end FileError

/-- Access to files. To write a file replaces all of it. -/
class Files (m : Type → Type) where
  read : String → m (Except FileError ByteArray)
  write : String → ByteArray → m (Except FileError Unit)
  /-- Copies the first file over the second, which is emptied before the copying starts. -/
  copy : String → String → m (Except FileError Unit)
  isPresent : String → m Bool

/-- The path of a name in a directory; the empty path is the current directory. -/
def pathIn (directory name : String) : String :=
  if directory = "" then name
  else if directory.toList.getLast? = some '/' then directory ++ name
  else directory ++ "/" ++ name

end CommandReference
