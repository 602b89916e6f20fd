/-
# Deleting jobs

`delete_job` and `delete_jobs`: `SPEC_FULL.md`, 4.3 and 7.

Deleting a stem removes every file that has it, except the files of the hit list; these two
go together, when the name of the hit list is given. A stem that nothing has is no
error. Files that cannot be removed are reported, and so is a stem that is not plain
when several are deleted.
-/

import JobSpool.Lifecycle.Observe

namespace JobSpool
namespace Spool

/-- Does deleting a stem remove a file? -/
def isDeletedWith (c : Config) (stem : String) (e : Entry) : Bool :=
  if stem == c.hitList.fileName then c.hitList.owns e.fileName
  else e.stem == stem && !c.hitList.owns e.fileName

/-- `delete_job`: removes what has the stem, or the two files of the hit list. -/
def deleteJob (c : Config) (p : Principal) (stem : String) (t : Files.Tree) :
    Except Error (RemovalReport × Files.Tree) :=
  if !FileName.isPlain stem then .error (.storage (.invalidName stem))
  else
    let folder := c.store.folder p
    if !t.isFolder folder then .ok ({}, t)
    else
      match Store.list folder t with
      | .error cause => .error (.storage cause)
      | .ok entries => .ok (Store.removeEntries (entries.filter (isDeletedWith c stem)) t)

/-- `delete_jobs`: deletes several jobs, whatever becomes of the others. -/
def deleteJobs (c : Config) (p : Principal) : List String → Files.Tree → RemovalReport × Files.Tree
  | [], t => ({}, t)
  | stem :: stems, t =>
    match deleteJob c p stem t with
    | .ok (report, t) =>
      let (more, t) := deleteJobs c p stems t
      (report.merge more, t)
    | .error e =>
      let (more, t) := deleteJobs c p stems t
      (RemovalReport.merge { failures := [⟨stem, e.userMessage⟩] } more, t)

end Spool
end JobSpool
