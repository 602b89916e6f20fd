/-
# The `at` facility

`AtScheduler`: `SPEC_FULL.md`, 4.2, 5 and E9.

Commands are handed to the program `at` on its input, listed with `atq` and dropped with
`atrm`. Which programs these are, the queue letter and a time limit for each call come
from the configuration. A call that cannot be started or does not end in time tells
nothing about the queue; a program that ends in failure complains, and so does `atrm`
when it prints anything at all.

What is called is a file, found under its path at the time of the call. The programs of a
host are given by the code in such a file and by what they do when they are called
(`Program`), and the calls that ended are on record, the latest first.
-/

import JobSpool.Config
import JobSpool.Scheduler.Basic
import JobSpool.Scheduler.Output

namespace JobSpool

/-- A program of a host. -/
structure Program where
  name : String
  /-- The content of a file that makes it this program. -/
  code : ByteArray
  /-- How long a call takes, in seconds. -/
  seconds : Nat
  /-- Does the program read its input? -/
  readsInput : Bool
  output : Output

/-- A call that ended. -/
structure ProgramCall where
  /-- The name of the program. -/
  program : String
  args : List String
  /-- What the program read, if it reads. -/
  input : Option String
  deriving DecidableEq, Repr

/-- A host with its programs, as the execution facility that is configured for it. -/
structure Facility where
  settings : SchedulerConfig
  programs : List Program
  calls : List ProgramCall := []

namespace Facility

/-- Why a name without a slash starts nothing. It is searched for in the usual folders, and the
programs of the host are in none of them; only the two names of folders are found. -/
def searchFault (name : String) : Files.OsError :=
  if name == "." || name == ".." then .denied
  else if Files.nameLimit < name.utf8ByteSize then .nameTooLong
  else .noEntry

/-- The program that is started under a path, or a name. -/
def program (f : Facility) (files : Files.Tree) (path : String) : Except Files.Fault Program :=
  if path.toList.contains '/' then
    match files.program ⟨path⟩ with
    | .error fault => .error fault
    | .ok file =>
      match f.programs.find? (·.code.data == file.content.data) with
      | some p => .ok p
      | none => .error (.system .notExecutable)
  else .error (.system (searchFault path))

/-- What is told about a program that cannot be started. -/
def unavailable (path : String) : Files.Fault → SchedulerError
  | .system .noEntry => .unavailable (path ++ " is not installed")
  | fault => .unavailable (path ++ ": " ++ fault.message)

/-- Does a text hold a null character? -/
def holdsNull (s : String) : Bool :=
  s.toList.contains '\x00'

/-- Calls a program with arguments, and an input if it is to have one. -/
def call (f : Facility) (files : Files.Tree) (path : String) (args : List String)
    (input : Option String) : Except SchedulerError Output × Facility :=
  if (path :: args).any holdsNull then
    (.error (.unavailable (path ++ ": nul byte found in provided data")), f)
  else
    match f.program files path with
    | .error fault => (.error (unavailable path fault), f)
    | .ok p =>
      if f.settings.timeoutSecs.toNat ≤ p.seconds then
        (.error (.timeout f.settings.timeoutSecs), f)
      else
        -- A program that does not read its input leaves no trace of it.
        let read := if p.readsInput then some (input.getD "") else none
        (.ok p.output, { f with calls := ⟨p.name, args, read⟩ :: f.calls })

/-- The arguments that name the queue. -/
def queueArgs (f : Facility) : List String :=
  match f.settings.queue with
  | some queue => ["-q", queue]
  | none => []

/-- A command line as a script: it ends in a line feed. -/
def script (line : String) : String :=
  if line.toList.getLast? == some '\n' then line else line ++ "\n"

/-- The ticket that `at` acknowledged, on either stream. -/
def acknowledgement (o : Output) : Except SchedulerError Ticket :=
  if !o.success then .error (.rejected o.complaint)
  else
    let text := Text.lenient o.stderr ++ "\n" ++ Text.lenient o.stdout
    match Ticket.ofText? text with
    | some ticket => .ok ticket
    | none => .error (.unexpectedOutput (Text.trimmed text))

/-- `submit`: hands a command line to `at`. -/
def submit (files : Files.Tree) (line : String) (f : Facility) :
    Except SchedulerError Ticket × Facility :=
  let args := f.queueArgs ++ ["-M", "now"]
  match f.call files f.settings.atCommand args (some (script line)) with
  | (.error e, f) => (.error e, f)
  | (.ok output, f) => (acknowledgement output, f)

/-- `cancel_many`: drops tickets with one call of `atrm`, if there are any. -/
def cancel (files : Files.Tree) (tickets : List Ticket) (f : Facility) :
    Except SchedulerError Unit × Facility :=
  if tickets.isEmpty then (.ok (), f)
  else
    match f.call files f.settings.atrmCommand (tickets.map (·.text)) none with
    | (.error e, f) => (.error e, f)
    | (.ok output, f) =>
      if output.success && output.isSilent then (.ok (), f)
      else (.error (.rejected output.complaint), f)

/-- `list_pending`: lists what is held with `atq`. -/
def pending (files : Files.Tree) (f : Facility) : Except SchedulerError PendingQueue × Facility :=
  match f.call files f.settings.atqCommand f.queueArgs none with
  | (.error e, f) => (.error e, f)
  | (.ok output, f) =>
    if output.success then (.ok (.ofListing (Text.lenient output.stdout)), f)
    else (.error (.rejected output.complaint), f)

instance : Scheduler Facility := ⟨submit, cancel, fun files _ => pending files⟩

end Facility
end JobSpool
