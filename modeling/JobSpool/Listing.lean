/-
# Listings of jobs

`ArtifactLink`, `JobSummary` and `JobListing`: `SPEC_FULL.md`, E5 and E6.

A listing has a summary for each job of a principal, in three sections, each in
descending natural order of the stems. A summary links the results that are there, by
addresses relative to the job root. The hit list, a file of its own, is listed apart
from the jobs.
-/

import JobSpool.JobFiles
import JobSpool.Progress

namespace JobSpool

/-- A file that can be fetched. -/
structure ArtifactLink where
  kind : Artifact
  fileName : String
  /-- The address relative to the job root. -/
  href : String
  deriving DecidableEq, Repr

namespace ArtifactLink

/-- The link to a file of a principal. -/
def ofFile (p : Principal) (kind : Artifact) (fileName : String) : ArtifactLink :=
  { kind, fileName, href := p.name ++ "/" ++ fileName }

/-- A link as a JSON object. -/
def toJson (l : ArtifactLink) : Json.Value :=
  .object [("kind", .text l.kind.label), ("fileName", .text l.fileName), ("href", .text l.href)]

end ArtifactLink

/-- What is shown of a job. -/
structure JobSummary where
  stem : String
  state : JobState
  progress : Option Progress
  links : List ArtifactLink
  deriving DecidableEq, Repr

namespace JobSummary

/-- `from_set`: the summary of a job, with links to the results that are there. -/
def ofFiles (p : Principal) (s : JobFiles) (state : JobState) (progress : Option Progress) :
    JobSummary where
  stem := s.stem
  state := state
  progress := progress
  links := Artifact.results.filterMap fun a =>
    (s.get? a).map fun e => .ofFile p a e.fileName

/-- A summary as a JSON object. -/
def toJson (s : JobSummary) : Json.Value :=
  .object (
    [("stem", .text s.stem), ("state", .text s.state.label)] ++
    Json.Value.optionalMember "progress" (s.progress.map (·.toJson)) ++
    [("artifactLinks", .list (s.links.map (·.toJson)))])

end JobSummary

/-- The jobs of a principal. -/
structure JobListing where
  queued : List JobSummary := []
  running : List JobSummary := []
  completed : List JobSummary := []
  hitList : Option JobSummary := none
  deriving DecidableEq, Repr

namespace JobListing

/-- Is nothing listed? -/
def isEmpty (l : JobListing) : Bool :=
  l.queued.isEmpty && l.running.isEmpty && l.completed.isEmpty && l.hitList.isNone

/-- Everything that is listed. -/
def summaries (l : JobListing) : List JobSummary :=
  l.queued ++ l.running ++ l.completed ++ l.hitList.toList

/-- The first summary with a given stem. -/
def find? (l : JobListing) (stem : String) : Option JobSummary :=
  l.summaries.find? (·.stem == stem)

/-- The summaries with one state, in descending natural order. -/
def sorted (state : JobState) (summaries : List JobSummary) : List JobSummary :=
  Text.sortNaturalDescending (·.stem) (summaries.filter (·.state == state))

/-- The listing of some jobs. -/
def ofSummaries (summaries : List JobSummary) (hitList : Option JobSummary) : JobListing where
  queued := sorted .queued summaries
  running := sorted .running summaries
  completed := sorted .completed summaries
  hitList := hitList

/-- A listing as a JSON object. -/
def toJson (l : JobListing) : Json.Value :=
  .object (
    [("queued", .list (l.queued.map (·.toJson))), ("running", .list (l.running.map (·.toJson))),
      ("completed", .list (l.completed.map (·.toJson)))] ++
    Json.Value.optionalMember "hitList" (l.hitList.map (·.toJson)))

end JobListing
end JobSpool
