/-
# Progress files

`FileProgress` with its `report`, and `read_progress`: `SPEC_FULL.md`, 4.4 and E7.

A worker tells how far it has come by events, and the file `<stem>.count` in the folder of
its principal follows them: an advance overwrites the file, completion removes it,
and a failure leaves the last counts behind, as a crash would. Nothing is ever raised to
the worker: what cannot be written or removed stays as it is.

Readers see no progress where there is no file, no text, or no two counts.
-/

import JobSpool.Artifact
import JobSpool.Files.Tree
import JobSpool.Progress

namespace JobSpool

/-- What a worker tells. -/
inductive ProgressEvent where
  | advanced (progress : Progress)
  | completed
  | failed (reason : String)
  deriving DecidableEq, Repr

namespace ProgressFile

/-- The progress file of a job. -/
def path (folder : Path) (stem : String) : Path :=
  folder.join (Artifact.progress.fileName stem)

/-- `read_progress`: the progress that a file tells. -/
def read? (t : Files.Tree) (path : Path) : Option Progress :=
  match t.readText path with
  | .ok text => Progress.ofText? text
  | .error _ => none

/-- The tree after a change, or as it was when the change failed. -/
def orUnchanged (t : Files.Tree) : Except Files.Fault Files.Tree → Files.Tree
  | .ok changed => changed
  | .error _ => t

/-- `report` of `FileProgress`: lets a progress file follow an event. -/
def record (path : Path) (now : Instant) (t : Files.Tree) : ProgressEvent → Files.Tree
  | .advanced p => orUnchanged t (t.write path p.line.toByteArray now)
  | .completed => orUnchanged t (t.remove path)
  | .failed _ => t

end ProgressFile
end JobSpool
