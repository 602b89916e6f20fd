/-
# Observing jobs

`list_jobs`, `progress_of` and `hit_list_domains`: `SPEC_FULL.md`, 4.3 and E5.

Everything that is told about jobs follows from the files of a principal at the time of
the call. A principal without a folder has no jobs. The two files of the hit list are
kept apart from the jobs, so whatever they are called, they change no other entry.
-/

import JobSpool.Lifecycle.Spool
import JobSpool.Listing
import JobSpool.ProgressFile

namespace JobSpool
namespace Spool

/-- The files of a listing that are of the hit list. -/
def hitListEntries (c : Config) (entries : List Entry) : List Entry :=
  entries.filter fun e => c.hitList.owns e.fileName

/-- The files of a listing that are not of the hit list. -/
def jobEntries (c : Config) (entries : List Entry) : List Entry :=
  entries.filter fun e => !c.hitList.owns e.fileName

/-- The progress that is shown for a job: only a running job has any. -/
def shownProgress (t : Files.Tree) (s : JobFiles) : JobState → Option Progress
  | .running => (s.get? .progress).bind fun e => ProgressFile.read? t e.path
  | _ => none

/-- The summary of files with one stem, if they are a job. -/
def summary? (p : Principal) (t : Files.Tree) (s : JobFiles) : Option JobSummary :=
  s.state?.map fun state => .ofFiles p s state (shownProgress t s state)

/-- `hit_list_summary`: the summary of the hit list, if its file is there. -/
def hitListSummary? (c : Config) (p : Principal) (entries : List Entry) : Option JobSummary :=
  let has (name : String) : Bool := entries.any (·.fileName == name)
  if has c.hitList.fileName then
    some {
      stem := c.hitList.fileName
      state := .completed
      progress := none
      links :=
        .ofFile p .input c.hitList.fileName ::
          (if has c.hitList.derivedCsv then [.ofFile p .csv c.hitList.derivedCsv] else []) }
  else none

/-- The listing that the files of a folder make. -/
def listingOf (c : Config) (p : Principal) (t : Files.Tree) (entries : List Entry) : JobListing :=
  .ofSummaries ((JobFiles.groups (jobEntries c entries)).filterMap (summary? p t))
    (hitListSummary? c p (hitListEntries c entries))

/-- `list_jobs`: lists the jobs of a principal. -/
def listJobs (c : Config) (p : Principal) (t : Files.Tree) : Except Error JobListing :=
  let folder := c.store.folder p
  if !t.isFolder folder then .ok {}
  else
    match Store.list folder t with
    | .error cause => .error (.storage cause)
    | .ok entries => .ok (listingOf c p t entries)

/-- `progress_of`: the progress of one job. There is none for a name that is not plain. -/
def progressOf (c : Config) (p : Principal) (stem : String) (t : Files.Tree) : Option Progress :=
  if FileName.isPlain stem then ProgressFile.read? t (ProgressFile.path (c.store.folder p) stem)
  else none

/-- The lines of a text without blanks around them, and without the empty ones. -/
def domainsOf (text : String) : List String :=
  (((Text.lines text.toList).map Text.trim).filter (!·.isEmpty)).map String.ofList

/-- `hit_list_domains`: the domains on the hit list. There are none without the file. -/
def hitListDomains (c : Config) (p : Principal) (t : Files.Tree) : Except Error (List String) :=
  let path := (c.store.folder p).join c.hitList.fileName
  match t.readText path with
  | .ok text => .ok (domainsOf text)
  | .error (.system .noEntry) => .ok []
  | .error fault => .error (.storage (.read path fault))

end Spool
end JobSpool
