/-
# The files of one job

`ArtifactSet` with `classify` and `progress_is_stale`, and `group_by_stem`: `SPEC_FULL.md`,
4.3, 8 and E6.

All files with one stem belong together (`JobFiles`), and the state of the job follows from
which of its artifacts are there. A progress file means that a worker is running, even
if results already appear. The results only count once all three are there; some of
them are a worker that is still writing. A lone input waits. Anything else is no job.

`groups` sorts the files of a listing by their stems. The order of the files inside a
group is the order of the listing.
-/

import JobSpool.Job
import JobSpool.Store

namespace JobSpool

/-- `ArtifactSet`: files with one stem. -/
structure JobFiles where
  stem : String
  entries : List Entry
  deriving DecidableEq, Repr

namespace JobFiles

/-- The file that is a given artifact. -/
def get? (s : JobFiles) (a : Artifact) : Option Entry :=
  s.entries.find? (·.artifact == a)

/-- Is an artifact there? -/
def has (s : JobFiles) (a : Artifact) : Bool :=
  (s.get? a).isSome

/-- Are all results there? -/
def hasAllResults (s : JobFiles) : Bool :=
  Artifact.results.all s.has

/-- Is any result there? -/
def hasAnyResult (s : JobFiles) : Bool :=
  Artifact.results.any s.has

/-- Is a marker of a live worker there? -/
def hasMarker (s : JobFiles) : Bool :=
  s.entries.any (·.artifact.isMarker)

/-- `classify`: the state of the job, or nothing when the files are no job. -/
def state? (s : JobFiles) : Option JobState :=
  if s.has .progress then some .running
  else if s.hasAllResults then some .completed
  else if s.hasAnyResult then some .running
  else if s.has .input then some .queued
  else none

/-- Was a file last written longer than `limit` nanoseconds ago? A file without a known time was,
and one from the future was not. -/
def isStale (now : Instant) (limit : Nat) (e : Entry) : Bool :=
  match e.modified with
  | some modified => (limit : Int) < now - modified
  | none => true

/-- `progress_is_stale`: is the progress file there, but not written for longer than `limit`
nanoseconds? -/
def progressIsStale (s : JobFiles) (now : Instant) (limit : Nat) : Bool :=
  match s.get? .progress with
  | some e => isStale now limit e
  | none => false

/-- `group_by_stem`: the files of a listing by stem, in the byte order of the stems. -/
def groups (entries : List Entry) : List JobFiles :=
  (Text.sortNames (entries.map (·.stem)).eraseDups).map fun stem =>
    ⟨stem, entries.filter (·.stem == stem)⟩

end JobFiles
end JobSpool
