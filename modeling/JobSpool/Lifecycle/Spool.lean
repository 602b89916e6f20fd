/-
# The spool

`JobLifecycleManager` with `cancel_pending` and `pending_queue`: `SPEC_FULL.md`, 4.3 and E5.

The state that jobs live in is a tree of files and a scheduler. Nothing is kept about a job
itself, so several programs can work on one spool. A call gets to know the time and
the random tokens it needs, and gives the spool after the call along with its
answer, also when it fails.
-/

import JobSpool.Config
import JobSpool.Scheduler.Basic

namespace JobSpool

/-- The files and the scheduler that jobs live in. -/
structure Spool (σ : Type) where
  files : Files.Tree
  scheduler : σ

/-- What a call gets to know: the time, and a random token for each attempt at a new name. -/
structure Moment where
  now : Instant
  token : Nat → String

namespace Spool

variable {σ : Type}

/-- The answer of a call, with the spool after it. -/
abbrev Answer (σ α : Type) := Except Error α × Spool σ

/-- A spool with other files. -/
def withFiles (s : Spool σ) (files : Files.Tree) : Spool σ :=
  { s with files }

/-- A spool with its scheduler in another state. -/
def withScheduler (s : Spool σ) (scheduler : σ) : Spool σ :=
  { s with scheduler }

/-- `cancel_pending`: drops tickets that have not started. Nothing is asked of the scheduler when
there are none. -/
def cancelPending [Scheduler σ] (tickets : List Ticket) (s : Spool σ) : Answer σ Unit :=
  if tickets.isEmpty then (.ok (), s)
  else
    let (answer, scheduler) := Scheduler.cancel s.files tickets s.scheduler
    (answer.mapError .scheduler, s.withScheduler scheduler)

/-- `pending_queue`: lists what the scheduler holds. -/
def pendingQueue [Scheduler σ] (now : Instant) (s : Spool σ) : Answer σ PendingQueue :=
  let (answer, scheduler) := Scheduler.pending s.files now s.scheduler
  (answer.mapError .scheduler, s.withScheduler scheduler)

end Spool
end JobSpool
