/-
# Submitting jobs

`submit_text`, `submit_file` and `submit_ping`, with the `fill_input` and `schedule` that
they share: `SPEC_FULL.md`, 4.3, 7 and E5.

A submission is checked before anything is stored. Then the folder of the principal is
made sure of, an input is created under a name that is free and filled, and the worker
is scheduled on it. An input that cannot be filled is dropped again, so that no worker
ever finds an empty one; an input that the scheduler refuses stays, because it can be
submitted again or deleted.

What is stored is stored on a medium, which may refuse any of these calls on files. By
default it refuses none.
-/

import JobSpool.Lifecycle.Spool
import JobSpool.WorkerCommand

namespace JobSpool

/-- `UploadedFile`: a file handed over by an upload. -/
structure Upload where
  /-- Where the content is. -/
  source : Path
  /-- The name that the user gave to the file. -/
  originalName : String
  deriving DecidableEq, Repr

namespace Spool

variable {σ : Type}

/-- `with_trailing_newline`: the text with a line feed at its end. -/
def endedLine (text : String) : String :=
  if text.toList.getLast? == some '\n' then text else text ++ "\n"

/-- The lines of an input for domains: without blanks around them, and without empty ones. -/
def domainLines (domains : List String) : List String :=
  (domains.map Text.trimmed).filter (!·.isEmpty)

/-- `fill_input`: fills a fresh input, or drops it when that fails, so far as the medium lets
it. -/
def fill (input : Path) (write : Path → Files.Tree → Except StorageError Files.Tree)
    (t : Files.Tree) (medium : Files.Medium := .intact) : Except StorageError Unit × Files.Tree :=
  match write input t with
  | .ok t => (.ok (), t)
  | .error cause =>
    let t := medium.breakOff t input
    match medium.refusal? .remove input, Store.remove input t with
    | none, .ok (_, t) => (.error cause, t)
    | _, _ => (.error cause, t)

/-- Stores an input in the folder of a principal, by a way to create a file in a folder and a way
to fill it. Gives the folder and the input. -/
def storeInput (c : Config) (p : Principal)
    (create : Path → Files.Tree → Except StorageError (Path × Files.Tree))
    (write : Path → Files.Tree → Except StorageError Files.Tree) (t : Files.Tree)
    (medium : Files.Medium := .intact) : Except StorageError (Path × Path) × Files.Tree :=
  match c.store.ensureFolder p t medium with
  | (.error cause, t) => (.error cause, t)
  | (.ok folder, t) =>
    match create folder t with
    | .error cause => (.error cause, t)
    | .ok (input, made) =>
      -- The tree has found a free name; the medium may still have no room for the file.
      match medium.refusal? .create input with
      | some cause => (.error (.create input (.system cause)), t)
      | none =>
        match fill input write made medium with
        | (.error cause, t) => (.error cause, t)
        | (.ok (), t) => (.ok (folder, input), t)

/-- `schedule`: schedules the worker on an input. -/
def schedule [Scheduler σ] (c : Config) (now : Instant) (p : Principal) (kind : JobKind)
    (folder input : Path) (s : Spool σ) : Answer σ Job :=
  let line := WorkerCommand.line c.worker kind folder input
  match Scheduler.submit s.files line s.scheduler with
  | (.error cause, scheduler) =>
    (.error (.notScheduled input.shownName cause), s.withScheduler scheduler)
  | (.ok ticket, scheduler) =>
    (.ok {
      id := input.shownName
      principal := p
      inputPath := input
      kind := kind
      state := .queued
      ticket := some ticket
      submittedAt := now }, s.withScheduler scheduler)

/-- Stores an input and schedules the worker on it. -/
def enqueue [Scheduler σ] (c : Config) (now : Instant) (p : Principal) (kind : JobKind)
    (create : Path → Files.Tree → Except StorageError (Path × Files.Tree))
    (write : Path → Files.Tree → Except StorageError Files.Tree) (s : Spool σ)
    (medium : Files.Medium := .intact) : Answer σ Job :=
  match storeInput c p create write s.files medium with
  | (.error cause, t) => (.error (.storage cause), s.withFiles t)
  | (.ok (folder, input), t) => schedule c now p kind folder input (s.withFiles t)

/-- Enqueues a text under a generated name. -/
def enqueueText [Scheduler σ] (c : Config) (m : Moment) (p : Principal) (kind : JobKind)
    (text : String) (s : Spool σ) (medium : Files.Medium := .intact) : Answer σ Job :=
  enqueue c m.now p kind
    (fun folder => Store.createUnique folder kind.nameStart m.now m.token)
    (fun input t => Store.writeInput input text.toByteArray m.now t medium) s medium

/-- `submit_text`: submits a pasted text for profiling. -/
def submitText [Scheduler σ] (c : Config) (m : Moment) (p : Principal) (text : String)
    (s : Spool σ) (medium : Files.Medium := .intact) : Answer σ Job :=
  if Text.isBlankText text then (.error (.submission .emptyInput), s)
  else enqueueText c m p .profile (endedLine text) s medium

/-- `submit_ping`: submits domains for a blocklist ping. Retries and pause have configured
defaults. -/
def submitPing [Scheduler σ] (c : Config) (m : Moment) (p : Principal) (domains : List String)
    (retryCount : Option UInt32) (pauseMillis : Option UInt64) (s : Spool σ)
    (medium : Files.Medium := .intact) : Answer σ Job :=
  let lines := domainLines domains
  if lines.isEmpty then (.error (.submission .emptyInput), s)
  else
    let kind : JobKind :=
      .ping (retryCount.getD c.ping.retryCount) (pauseMillis.getD c.ping.pauseMillis)
    enqueueText c m p kind ("\n".intercalate lines ++ "\n") s medium

/-- The stem for an upload that can be accepted. -/
def checkUpload (u : Upload) (t : Files.Tree) : Except SubmissionError String :=
  match t.file? u.source with
  | none => .error .missingUpload
  | some file =>
    if file.content.isEmpty then .error .emptyInput
    else
      match FileName.uploadStem u.originalName with
      | none => .error .invalidUploadName
      | some stem => .ok stem

/-- `submit_file`: submits an uploaded file for profiling. The job is named after the upload. -/
def submitFile [Scheduler σ] (c : Config) (now : Instant) (p : Principal) (u : Upload)
    (s : Spool σ) (medium : Files.Medium := .intact) : Answer σ Job :=
  match checkUpload u s.files with
  | .error cause => (.error (.submission cause), s)
  | .ok stem =>
    enqueue c now p .profile
      (fun folder => Store.createNamed folder stem c.hitList.reserved now)
      (fun input t => Store.copyInput u.source input now t medium) s medium

end Spool
end JobSpool
