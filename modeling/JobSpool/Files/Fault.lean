/-
# Why a call on a file fails

A refused call has a cause of the operating system, or it was refused before the system
was asked: a file that is read as text is not UTF-8, a path holds a null character, or
what is to be copied is not a file.
-/

import JobSpool.Files.Cause

namespace JobSpool
namespace Files

/-- Why a call on a file fails. -/
inductive Fault where
  | system (cause : OsError)
  /-- The content is to be text but is not UTF-8. -/
  | notUtf8
  /-- The path holds a null character. -/
  | nullInPath
  /-- What is to be copied is no file. -/
  | notRegular
  deriving DecidableEq, Repr

namespace Fault

/-- A fault as it is shown. -/
def message : Fault → String
  | system cause => cause.message
  | notUtf8 => "stream did not contain valid UTF-8"
  | nullInPath => "file name contained an unexpected NUL byte"
  | notRegular => "the source path is neither a regular file nor a symlink to a regular file"

end Fault
end Files
end JobSpool
