/-
# Errors

`StorageError`, `SchedulerError`, `SubmissionError`, `ConfigError` and `ProfqError` with its
`user_message`: `SPEC_FULL.md`, 7 and E2.

Every error is a cause with what is needed to tell it. `Error.message` tells all of it,
with the part of the program that failed in front. `Error.userMessage` is what an end
user is shown: the text of the execution facility is passed on as it is, a rejected
submission is explained, and everything else is reduced to a short category, so that
no path of the store ever reaches the user.
-/

import JobSpool.Files.Fault
import JobSpool.Json.Reader
import JobSpool.Path
import JobSpool.Text.Quoted

namespace JobSpool

/-- Why a configuration cannot be used. -/
inductive ConfigError where
  | read (path : Path) (fault : Files.Fault)
  /-- The text is not JSON. -/
  | notJson (fault : Json.Fault)
  /-- A value passes the schema but is not of the type that is read. -/
  | illTyped (reason : String)
  /-- A value of the right type is not allowed. -/
  | validation (reason : String)
  /-- The document breaks the schema. -/
  | schema (faults : List String)
  deriving DecidableEq, Repr

/-- Why the store refuses a call. -/
inductive StorageError where
  | makeFolder (path : Path) (fault : Files.Fault)
  | setPermissions (path : Path) (fault : Files.Fault)
  | create (path : Path) (fault : Files.Fault)
  | write (path : Path) (fault : Files.Fault)
  | read (path : Path) (fault : Files.Fault)
  | copy (source target : Path) (fault : Files.Fault)
  | list (path : Path) (fault : Files.Fault)
  | remove (path : Path) (fault : Files.Fault)
  | invalidName (name : String)
  /-- No name is left for a new file in a folder. -/
  | namesExhausted (folder : Path) (start : String)
  deriving DecidableEq, Repr

/-- Why the execution facility refuses a call. -/
inductive SchedulerError where
  | unavailable (reason : String)
  | timeout (seconds : UInt64)
  /-- The facility complained, in its own words. -/
  | rejected (complaint : String)
  | unexpectedOutput (output : String)
  | unknownTicket (ticket : String)
  deriving DecidableEq, Repr

/-- Why a submission is rejected before anything is stored. -/
inductive SubmissionError where
  | emptyInput
  | missingUpload
  | invalidUploadName
  deriving DecidableEq, Repr

/-- Why a request fails. -/
inductive Error where
  | config (cause : ConfigError)
  | storage (cause : StorageError)
  | scheduler (cause : SchedulerError)
  | submission (cause : SubmissionError)
  /-- The input is stored, but the facility refused the command. The input stays. -/
  | notScheduled (job : String) (cause : SchedulerError)
  deriving DecidableEq, Repr

namespace Json.Fault

/-- A fault of a JSON text in words. -/
def message : Fault → String
  | unfinished => "unexpected end of text"
  | malformed => "malformed text"
  | mismatch => "unexpected value"

end Json.Fault

namespace ConfigError

/-- What is wrong with a configuration. -/
def message : ConfigError → String
  | read path fault =>
    "Failed to read config file '" ++ path.text ++ "': " ++ fault.message
  | notJson fault => "Failed to parse config JSON: " ++ fault.message
  | illTyped reason => "Failed to parse config JSON: " ++ reason
  | validation reason => "Config validation failed: " ++ reason
  | schema faults => "Schema validation failed: " ++ "; ".intercalate faults

end ConfigError

namespace StorageError

/-- What the store could not do. -/
def message : StorageError → String
  | makeFolder path fault =>
    "Failed to create directory '" ++ path.text ++ "': " ++ fault.message
  | setPermissions path fault =>
    "Failed to set permissions on '" ++ path.text ++ "': " ++ fault.message
  | create path fault => "Failed to create file '" ++ path.text ++ "': " ++ fault.message
  | write path fault => "Failed to write file '" ++ path.text ++ "': " ++ fault.message
  | read path fault => "Failed to read file '" ++ path.text ++ "': " ++ fault.message
  | copy source target fault =>
    "Failed to copy file from '" ++ source.text ++ "' to '" ++ target.text ++ "': " ++ fault.message
  | list path fault =>
    "Failed to read directory '" ++ path.text ++ "': IO error for operation on " ++ path.text ++
      ": " ++ fault.message
  | remove path fault => "Failed to remove '" ++ path.text ++ "': " ++ fault.message
  | invalidName name => "Invalid name: " ++ Text.quoted name
  | namesExhausted folder start =>
    "No free file name left for prefix '" ++ start ++ "' in '" ++ folder.text ++ "'"

/-- Why a removal failed, without the path. -/
def reason : StorageError → String
  | remove _ fault => fault.message
  | e => e.message

end StorageError

namespace SchedulerError

/-- What the facility did. -/
def message : SchedulerError → String
  | unavailable reason => "Scheduler unavailable: " ++ reason
  | timeout seconds => "Scheduler did not answer within " ++ Text.writeCount seconds ++ "s"
  | rejected complaint => complaint
  | unexpectedOutput output => "Unexpected scheduler output: " ++ output
  | unknownTicket ticket => "Unknown ticket: " ++ ticket

/-- What a user is shown: the facility's own words where there are any. -/
def userMessage : SchedulerError → String
  | rejected complaint => complaint
  | unexpectedOutput output => output
  | e => e.message

end SchedulerError

namespace SubmissionError

/-- Why a submission is rejected. -/
def message : SubmissionError → String
  | emptyInput => "No domains or addresses supplied."
  | missingUpload => "Uploaded file is missing."
  | invalidUploadName => "Uploaded file name is not usable."

end SubmissionError

namespace Error

/-- The whole story of an error. -/
def message : Error → String
  | config cause => "Configuration error: " ++ cause.message
  | storage cause => "Storage error: " ++ cause.message
  | scheduler cause => "Scheduler error: " ++ cause.message
  | submission cause => "Submission rejected: " ++ cause.message
  | notScheduled job cause => "Job '" ++ job ++ "' saved but not scheduled: " ++ cause.message

/-- What an end user is shown. -/
def userMessage : Error → String
  | scheduler cause => cause.userMessage
  | notScheduled _ cause => cause.userMessage
  | submission cause => cause.message
  | storage (.invalidName _) => "Invalid job name."
  | storage _ => "Job storage failure."
  | config _ => "Configuration error."

end Error
end JobSpool
