/-
# Running a request

`resolve_config`, and what each command of `SPEC_FULL.md`, E10, calls.

A run reads the configuration, checks the principal and passes the task on to the spool.
The first of these to fail decides, and words that are no request end the run before
anything is looked at.
-/

import JobSpool.CommandLine.Help
import JobSpool.CommandLine.Output
import JobSpool.Config.Load
import JobSpool.Lifecycle.Delete
import JobSpool.Lifecycle.Reconcile
import JobSpool.Lifecycle.Submit

namespace JobSpool
namespace CommandLine

variable {σ : Type}

/-- What surrounds a run. -/
structure Surroundings where
  /-- The folder where programs keep their configuration, if there is one. -/
  configFolder : Option Path
  /-- The input of the program. -/
  stdin : ByteArray
  moment : Moment

/-- The configuration to use: the one that is asked for, or the one of the user. -/
def configPath? (s : Surroundings) (r : Request) : Option Path :=
  match r.config with
  | some path => some ⟨path⟩
  | none => s.configFolder.map fun folder => (folder.join "profq").join "config.json"

/-- Loads the configuration of a request. -/
def loadConfig (s : Surroundings) (r : Request) (t : Files.Tree) : Except ConfigError Config :=
  match configPath? s r with
  | some path => Config.load path t
  | none => .error (.validation "no --config given and no platform config directory")

/-- The text of the program's input. Input that is no text counts as empty. -/
def inputText (s : Surroundings) : String :=
  (Text.strict s.stdin).getD ""

/-- An answer with its result shown. -/
def shown {α : Type} (form : α → Shown) (a : Spool.Answer σ α) : Spool.Answer σ Shown :=
  (a.1.map form, a.2)

/-- Performs a task on the spool. -/
def perform [Scheduler σ] (c : Config) (s : Surroundings) (p : Principal) (spool : Spool σ) :
    Task → Spool.Answer σ Shown
  | .submit (some file) _ =>
    let upload : Upload := ⟨⟨file⟩, (Path.mk file).fileName.getD ""⟩
    shown showJob (spool.submitFile c s.moment.now p upload)
  | .submit none words =>
    let text := if words.isEmpty then inputText s else "\n".intercalate words
    shown showJob (spool.submitText c s.moment p text)
  | .ping domains retryCount pauseMillis =>
    shown showJob (spool.submitPing c s.moment p domains retryCount pauseMillis)
  | .list => ((Spool.listJobs c p spool.files).map showListing, spool)
  | .progress stem => (.ok (showProgress stem (Spool.progressOf c p stem spool.files)), spool)
  | .delete stems =>
    let (report, files) := Spool.deleteJobs c p stems spool.files
    (.ok (showRemoval report), spool.withFiles files)
  | .pending => shown showQueue (spool.pendingQueue s.moment.now)
  | .cancel tickets =>
    let tickets := tickets.map Ticket.mk
    shown (fun () => showCancelled tickets) (spool.cancelPending tickets)
  | .reconcile => shown showSweep (spool.reconcile c s.moment.now p)
  | .hitList => ((Spool.hitListDomains c p spool.files).map showDomains, spool)

/-- What a run depends on: the configuration and the principal. -/
def prepare (s : Surroundings) (r : Request) (t : Files.Tree) : Except Error (Config × Principal) :=
  match loadConfig s r t with
  | .error cause => .error (.config cause)
  | .ok c =>
    match Principal.ofName r.principal with
    | .error cause => .error (.storage cause)
    | .ok p => .ok (c, p)

/-- The outcome of a run that stops at its words. -/
def Outcome.ofStop : Stop → Outcome
  | .help subcommand => { exit := 0, stdout := help subcommand }
  | .version => { exit := 0, stdout := grammar.name ++ " " ++ version ++ "\n" }
  | .usage => { exit := 2 }

/-- Runs a request. `connect` gives the scheduler for a configuration. -/
def serve [Scheduler σ] (connect : Config → σ → σ) (s : Surroundings) (r : Request)
    (spool : Spool σ) : Outcome × Spool σ :=
  match prepare s r spool.files with
  | .error e => (.ofError r.json e, spool)
  | .ok (c, p) =>
    match perform c s p (spool.withScheduler (connect c spool.scheduler)) r.task with
    | (.error e, spool) => (.ofError r.json e, spool)
    | (.ok result, spool) => (.ofResult r.json result, spool)

/-- Runs the program on some words. -/
def run [Scheduler σ] (connect : Config → σ → σ) (s : Surroundings) (words : List String)
    (spool : Spool σ) : Outcome × Spool σ :=
  match Request.ofWords words with
  | .error stop => (.ofStop stop, spool)
  | .ok r => serve connect s r spool

end CommandLine
end JobSpool
