/-
# Jobs

`Job`, `JobKind` and `JobState`: `SPEC_FULL.md`, 3 and E6.

The state of a job is never stored; it follows from which files of the job exist, and
only a sweep tells an orphaned job from a running one. A job is either a full profile
of every domain on its list or a blocklist ping with retries and a pause.
-/

import JobSpool.Calendar
import JobSpool.Principal
import JobSpool.Scheduler.Queue

namespace JobSpool

/-- Where a job stands. -/
inductive JobState where
  | queued
  | running
  | completed
  /-- Left behind by a worker that died. -/
  | orphaned
  | deleted
  deriving DecidableEq, Repr

namespace JobState

/-- All states. -/
def all : List JobState :=
  [queued, running, completed, orphaned, deleted]

/-- The word for a state in reports. -/
def label : JobState → String
  | queued => "queued"
  | running => "running"
  | completed => "completed"
  | orphaned => "orphaned"
  | deleted => "deleted"

/-- The state as it is shown. -/
def shown : JobState → String
  | queued => "Queued"
  | running => "Running"
  | completed => "Completed"
  | orphaned => "Orphaned"
  | deleted => "Deleted"

/-- The state with a given word. -/
def ofLabel? (label : String) : Option JobState :=
  all.find? (·.label == label)

/-- **The words tell the states apart.** -/
theorem ofLabel?_label (s : JobState) : ofLabel? s.label = some s := by
  cases s <;> decide

end JobState

/-- What a worker is asked to do with the list. -/
inductive JobKind where
  /-- A full profile of every domain or address. -/
  | profile
  /-- A blocklist ping, with retries for each domain and a pause between domains. -/
  | ping (retryCount : UInt32) (pauseMillis : UInt64)
  deriving DecidableEq, Repr

namespace JobKind

/-- What the generated names of inputs start with. -/
def nameStart : JobKind → String
  | profile => "job_"
  | ping _ _ => "ping_"

/-- A kind as a JSON object. -/
def toJson : JobKind → Json.Value
  | profile => .object [("type", .text "profile")]
  | ping retryCount pauseMillis =>
    .object [
      ("type", .text "ping"),
      ("retry_count", .nat retryCount.toNat),
      ("pause_millis", .number (.natural pauseMillis))]

end JobKind

/-- A job, as a submission creates it. -/
structure Job where
  /-- The stem of every file of the job. -/
  id : String
  principal : Principal
  inputPath : Path
  kind : JobKind
  state : JobState
  /-- The ticket, valid while the job waits. -/
  ticket : Option Ticket
  submittedAt : Instant
  deriving DecidableEq

namespace Job

/-- A job as a JSON object. -/
def toJson (j : Job) : Json.Value :=
  .object (
    [("id", .text j.id), ("principal", .text j.principal.name),
      ("inputPath", .text j.inputPath.text), ("kind", j.kind.toJson),
      ("state", .text j.state.label)] ++
    Json.Value.optionalMember "schedulerTicket" (j.ticket.map fun t => .text t.text) ++
    [("submittedAt", .text j.submittedAt.full)])

end Job
end JobSpool
