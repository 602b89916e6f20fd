/-
# Sweeping up

`SweepPolicy` with `classify` and `partition`, and `state_after_sweep`: `SPEC_FULL.md`, E8.

After a restart of the host, a folder may hold inputs whose tickets are lost, progress
files of workers that were killed, and scratch files of unknown origin. A sweep keeps
whatever may still belong to live work, and removes the rest: everything of a job
with a fresh progress file stays, results and markers always stay, inputs stay when
`keepInputs` is set, and progress files and unrecognized files go.
-/

import JobSpool.JobFiles

namespace JobSpool

/-- `SweepPolicy`: by what a sweep decides. -/
structure SweepPolicy where
  now : Instant
  /-- A progress file that was not written for longer, in nanoseconds, is of a dead worker. -/
  staleAfter : Nat
  /-- Keep inputs, because the facility holds tickets or cannot be asked. -/
  keepInputs : Bool
  deriving DecidableEq, Repr

namespace SweepPolicy

/-- Is a worker at work on the job? -/
def isLive (p : SweepPolicy) (s : JobFiles) : Bool :=
  s.has .progress && !s.progressIsStale p.now p.staleAfter

/-- `classify` of a sweep: a job with a stale progress file, or an input that the facility no longer
holds, is orphaned. -/
def state? (p : SweepPolicy) (s : JobFiles) : Option JobState :=
  match s.state? with
  | some .running =>
    if s.has .progress && s.progressIsStale p.now p.staleAfter then some .orphaned
    else some .running
  | some .queued => if p.keepInputs then some .queued else some .orphaned
  | other => other

/-- Does an artifact of a job without a live worker stay? -/
def keepsArtifact (p : SweepPolicy) : Artifact → Bool
  | .csv | .log | .jobCopy => true
  | .busy | .lock | .mx => true
  | .input => p.keepInputs
  | .progress | .unrecognized => false

/-- `partition`: does a file of a job stay? -/
def keeps (p : SweepPolicy) (s : JobFiles) (e : Entry) : Bool :=
  p.isLive s || p.keepsArtifact e.artifact

/-- The files of a job that stay. -/
def kept (p : SweepPolicy) (s : JobFiles) : List Entry :=
  s.entries.filter (p.keeps s)

/-- The files of a job that go. -/
def removed (p : SweepPolicy) (s : JobFiles) : List Entry :=
  s.entries.filter (!p.keeps s ·)

end SweepPolicy

namespace JobFiles

/-- The files without those with given names. -/
def without (s : JobFiles) (names : List String) : JobFiles :=
  { s with entries := s.entries.filter fun e => !names.contains e.fileName }

/-- `state_after_sweep`: what has become of an orphaned job when files with the given names are
removed. It is gone, its results survived as a whole, or something else is left. -/
def stateAfterSweep (s : JobFiles) (names : List String) : JobState :=
  match (s.without names).state? with
  | none => .deleted
  | some .completed => .completed
  | some _ => .orphaned

end JobFiles

/-- A job that a sweep found orphaned. -/
structure OrphanedJob where
  stem : String
  /-- What the sweep has left of it. -/
  stateAfter : JobState
  deriving DecidableEq, Repr

namespace OrphanedJob

/-- An orphaned job as a JSON object. -/
def toJson (o : OrphanedJob) : Json.Value :=
  .object [("stem", .text o.stem), ("stateAfter", .text o.stateAfter.label)]

end OrphanedJob

/-- `ReconcileReport`: the outcome of a sweep, by names of files. -/
structure SweepReport where
  removed : List String := []
  kept : List String := []
  orphaned : List OrphanedJob := []
  failures : List RemovalFailure := []
  deriving DecidableEq, Repr

namespace SweepReport

/-- Did no removal fail? -/
def isClean (r : SweepReport) : Bool :=
  r.failures.isEmpty

/-- Adds the outcome of removals. -/
def absorb (r : SweepReport) (removal : RemovalReport) : SweepReport :=
  { r with removed := r.removed ++ removal.removed, failures := r.failures ++ removal.failures }

/-- A report as a JSON object. -/
def toJson (r : SweepReport) : Json.Value :=
  .object (
    [("removed", .texts r.removed), ("kept", .texts r.kept)] ++
    (if r.orphaned.isEmpty then [] else [("orphaned", .list (r.orphaned.map (·.toJson)))]) ++
    RemovalReport.failuresMember r.failures)

end SweepReport
end JobSpool
