/-
# Results as they are shown

`ApiResponse`, and the `render` of each result: `SPEC_FULL.md`, E10.

Every result of a request has a text for people and a JSON value for programs. The JSON
value stands in an envelope that tells whether the request succeeded.
-/

import JobSpool.Listing
import JobSpool.Sweep

namespace JobSpool
namespace CommandLine

/-- A result that can be shown in both forms. -/
structure Shown where
  text : String
  json : Json.Value

/-- Progress with its percentage, if it has one. -/
def shownProgress (p : Progress) : String :=
  match p.percent with
  | some percent => p.shown ++ " (" ++ percent.toNat.repr ++ "%)"
  | none => p.shown

/-- A job that was submitted. -/
def showJob (j : Job) : Shown where
  text :=
    match j.ticket with
    | some ticket => "Queued " ++ j.id ++ " as ticket " ++ ticket.text
    | none => "Stored " ++ j.id
  json := j.toJson

/-- A line for a summary: its stem, its progress and its links. -/
def summaryLine (s : JobSummary) : String :=
  "  " ++ s.stem ++
    (match s.progress with
      | some p => "  " ++ shownProgress p
      | none => "") ++
    String.join (s.links.map fun l => "  " ++ l.href)

/-- A section of a listing, if it has summaries. -/
def listingSection (title : String) (summaries : List JobSummary) : List String :=
  if summaries.isEmpty then []
  else ["\n".intercalate ((title ++ ":") :: summaries.map summaryLine)]

/-- A listing of jobs. -/
def showListing (l : JobListing) : Shown where
  text :=
    if l.isEmpty then "No jobs."
    else
      "\n\n".intercalate (listingSection "Queued" l.queued ++ listingSection "Running" l.running ++
        listingSection "Completed" l.completed ++ listingSection "Hit list" l.hitList.toList)
  json := l.toJson

/-- The progress of a job. -/
def showProgress (stem : String) (p : Option Progress) : Shown where
  text :=
    match p with
    | some p => stem ++ ": " ++ shownProgress p
    | none => stem ++ ": progress unknown"
  json := .object [("stem", .text stem), ("progress", .orNull (p.map (·.toJson)))]

/-- The lines for files that could not be removed. -/
def failureLines (failures : List RemovalFailure) : List String :=
  failures.map fun f => "  could not remove " ++ f.fileName ++ ": " ++ f.reason

/-- The outcome of a deletion. -/
def showRemoval (r : RemovalReport) : Shown where
  text :=
    "\n".intercalate
      (("Removed " ++ r.removed.length.repr ++ " file(s)") :: failureLines r.failures)
  json := r.toJson

/-- The outcome of a sweep. -/
def showSweep (r : SweepReport) : Shown where
  text :=
    "\n".intercalate (
      ("Removed " ++ r.removed.length.repr ++ " file(s), kept " ++ r.kept.length.repr) ::
      r.removed.map (fun name => "  removed " ++ name) ++
      r.orphaned.map (fun o => "  orphaned " ++ o.stem ++ " (" ++ o.stateAfter.shown ++ ")") ++
      failureLines r.failures)
  json := r.toJson

/-- The domains of the hit list. -/
def showDomains (domains : List String) : Shown where
  text := "\n".intercalate domains
  json := .object [("domains", .texts domains)]

/-- The pending queue. -/
def showQueue (q : PendingQueue) : Shown where
  text :=
    if q.isEmpty then "No pending jobs."
    else
      "\n".intercalate
        (q.entries.map fun e => if e.executing then e.raw ++ "  (running)" else e.raw)
  json := q.toJson

/-- The tickets that were dropped. -/
def showCancelled (tickets : List Ticket) : Shown where
  text :=
    if tickets.isEmpty then "Nothing to cancel."
    else "Cancelled " ++ " ".intercalate (tickets.map (·.text))
  json := .object [("cancelled", .texts (tickets.map (·.text)))]

/-- What the program leaves behind: its exit code and its two streams. -/
structure Outcome where
  exit : UInt8
  stdout : String := ""
  stderr : String := ""
  deriving DecidableEq, Repr

/-- A text as a line of its own, if there is any. -/
def lineOf (text : String) : String :=
  if text.isEmpty then "" else text ++ "\n"

/-- The outcome of a request that succeeded. -/
def Outcome.ofResult (json : Bool) (shown : Shown) : Outcome where
  exit := 0
  stdout :=
    let envelope : Json.Value := .object [("success", .bool true), ("data", shown.json)]
    if json then envelope.renderPretty ++ "\n" else lineOf shown.text

/-- The outcome of a request that failed. -/
def Outcome.ofError (json : Bool) (e : Error) : Outcome :=
  if json then
    let envelope : Json.Value := .object [("success", .bool false), ("error", .text e.userMessage)]
    { exit := 1, stdout := envelope.renderPretty ++ "\n" }
  else { exit := 1, stderr := e.userMessage ++ "\n" }

end CommandLine
end JobSpool
