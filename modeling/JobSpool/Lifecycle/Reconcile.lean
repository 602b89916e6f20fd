/-
# Reconciling a folder with the scheduler

`reconcile`: `SPEC_FULL.md`, 4.3 and E8.

To be run by hand after a restart of the host. The scheduler is asked first: while it
holds anything, or cannot be asked, inputs stay. Then every group of files of the
principal is swept by the policy that follows, and the report accounts for every file.
-/

import JobSpool.Lifecycle.Observe
import JobSpool.Sweep

namespace JobSpool
namespace Spool

variable {σ : Type}

/-- Do inputs stay, by what the scheduler answered? -/
def keepsInputs : Except SchedulerError PendingQueue → Bool
  | .ok queue => !queue.isEmpty
  | .error _ => true

/-- Sweeps files with one stem, and adds to the report. -/
def sweepGroup (policy : SweepPolicy) (report : SweepReport) (s : JobFiles) (t : Files.Tree) :
    SweepReport × Files.Tree :=
  let (removal, t) := Store.removeEntries (policy.removed s) t
  let orphaned : List OrphanedJob :=
    if policy.state? s = some .orphaned then [⟨s.stem, s.stateAfterSweep removal.removed⟩] else []
  let report := { report with
    kept := report.kept ++ (policy.kept s).map Entry.fileName
    orphaned := report.orphaned ++ orphaned }
  (report.absorb removal, t)

/-- Sweeps groups of files one after another. -/
def sweepGroups (policy : SweepPolicy) : SweepReport → List JobFiles → Files.Tree →
    SweepReport × Files.Tree
  | report, [], t => (report, t)
  | report, s :: rest, t =>
    let (report, t) := sweepGroup policy report s t
    sweepGroups policy report rest t

/-- A report with its lists in order. -/
def arranged (r : SweepReport) : SweepReport :=
  { r with
    removed := Text.sortNames r.removed
    kept := Text.sortNames r.kept
    orphaned := Text.sortNaturalDescending (·.stem) r.orphaned }

/-- Sweeps the files of a listing. -/
def sweepEntries (c : Config) (policy : SweepPolicy) (entries : List Entry) (t : Files.Tree) :
    SweepReport × Files.Tree :=
  let start : SweepReport := { kept := (hitListEntries c entries).map (·.fileName) }
  let (report, t) := sweepGroups policy start (JobFiles.groups (jobEntries c entries)) t
  (arranged report, t)

/-- `reconcile`: sweeps the folder of a principal, by what the scheduler still holds. -/
def reconcile [Scheduler σ] (c : Config) (now : Instant) (p : Principal) (s : Spool σ) :
    Answer σ SweepReport :=
  let folder := c.store.folder p
  if !s.files.isFolder folder then (.ok {}, s)
  else
    -- The scheduler is asked before the folder is listed.
    let (answer, scheduler) := Scheduler.pending s.files now s.scheduler
    let s := s.withScheduler scheduler
    let policy : SweepPolicy :=
      { now, staleAfter := c.sweep.staleAfter, keepInputs := keepsInputs answer }
    match Store.list folder s.files with
    | .error cause => (.error (.storage cause), s)
    | .ok entries =>
      let (report, t) := sweepEntries c policy entries s.files
      (.ok report, s.withFiles t)

end Spool
end JobSpool
