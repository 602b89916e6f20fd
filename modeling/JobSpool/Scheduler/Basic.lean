/-
# Schedulers

`ExecutionScheduler` with `submit`, `cancel`, `cancel_many` and `list_pending`:
`SPEC_FULL.md`, 4.2.

A scheduler takes a whole command line that is to run once, later and on its own, and
gives a ticket for it. Tickets that have not started can be dropped, and what is still
held can be listed. A scheduler changes as it is used, so every call gives the
scheduler after the call along with its answer, also when it refuses. It may be reached
through programs, so a call gets to see the files, and leaves them alone.
-/

import JobSpool.Calendar
import JobSpool.Error
import JobSpool.Files.Tree
import JobSpool.Scheduler.Queue

namespace JobSpool

/-- What can be done with a scheduler of type `σ`, among some files. -/
class Scheduler (σ : Type) where
  /-- Takes a command line. -/
  submit : Files.Tree → String → σ → Except SchedulerError Ticket × σ
  /-- Drops tickets that have not started. -/
  cancel : Files.Tree → List Ticket → σ → Except SchedulerError Unit × σ
  /-- Lists what is held. -/
  pending : Files.Tree → Instant → σ → Except SchedulerError PendingQueue × σ

end JobSpool
