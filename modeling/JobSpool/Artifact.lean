/-
# Artifacts

`ArtifactKind` with `from_extension`, `extension` and `file_name`: `SPEC_FULL.md`, 6
(artifact naming convention) and E6.

A job `S` may own eight files, told apart by their extension: the input `S` itself, the
three results `S.csv`, `S.log` and `S.job`, the progress file `S.count`, and the
markers `S.busy`, `S.lock` and `S.mx` that a live worker holds. Any other extension
is unrecognized. Extensions are case sensitive.
-/

import JobSpool.FileName

namespace JobSpool

/-- What a file is to its job. -/
inductive Artifact where
  /-- The submitted list. -/
  | input
  /-- The copy of the input that a worker leaves on completion. -/
  | jobCopy
  /-- The structured results. -/
  | csv
  /-- The transcript. -/
  | log
  /-- The progress file. -/
  | progress
  | busy
  | lock
  | mx
  | unrecognized
  deriving DecidableEq, Repr

namespace Artifact

/-- `from_extension`: the artifact with a given extension. -/
def ofExtension : Option String → Artifact
  | none => input
  | some "job" => jobCopy
  | some "csv" => csv
  | some "log" => log
  | some "count" => progress
  | some "busy" => busy
  | some "lock" => lock
  | some "mx" => mx
  | some _ => unrecognized

/-- The extension of an artifact, if it has one of its own. -/
def extension : Artifact → Option String
  | jobCopy => some "job"
  | csv => some "csv"
  | log => some "log"
  | progress => some "count"
  | busy => some "busy"
  | lock => some "lock"
  | mx => some "mx"
  | input | unrecognized => none

/-- **Extensions tell the recognized artifacts apart.** -/
theorem ofExtension_extension {a : Artifact} (h : a ≠ unrecognized) :
    ofExtension a.extension = a := by
  cases a with
  | unrecognized => exact absurd rfl h
  | _ => rfl

/-- `file_name`: the name of an artifact of the job with the given stem. -/
def fileName (a : Artifact) (stem : String) : String :=
  FileName.ofParts stem a.extension

/-- The files that a job may own. -/
def owned : List Artifact :=
  [input, jobCopy, csv, log, progress, busy, lock, mx]

/-- The results, in the order in which they are shown. -/
def results : List Artifact :=
  [csv, log, jobCopy]

/-- Is it a result? -/
def isResult (a : Artifact) : Bool :=
  results.contains a

/-- Is it a marker that a live worker holds? -/
def isMarker : Artifact → Bool
  | busy | lock | mx => true
  | _ => false

/-- The word for an artifact in reports. -/
def label : Artifact → String
  | input => "input"
  | jobCopy => "job_copy"
  | csv => "csv"
  | log => "log"
  | progress => "progress"
  | busy => "busy"
  | lock => "lock"
  | mx => "mx"
  | unrecognized => "unrecognized"

end Artifact
end JobSpool
