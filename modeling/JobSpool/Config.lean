/-
# Configuration

`Config` with its sections, their defaults and `with_job_root`: `SPEC_FULL.md`, E4.

A configuration says where the jobs are, which worker runs them, how the execution
facility is called, and what the hit list is called. Everything but the version and the
job root has a default, so `withJobRoot` is a whole configuration.
-/

import JobSpool.Store

namespace JobSpool

/-- The program that works a job off, and its leading arguments. -/
structure WorkerConfig where
  executable : String := "smtp-profile.sh"
  args : List String := ["-v"]
  deriving DecidableEq, Repr

/-- How a blocklist ping behaves when a submission does not say. -/
structure PingConfig where
  retryCount : UInt32 := 2
  pauseMillis : UInt64 := 1000
  deriving DecidableEq, Repr

/-- How the execution facility is called. -/
structure SchedulerConfig where
  atCommand : String := "at"
  atqCommand : String := "atq"
  atrmCommand : String := "atrm"
  /-- The queue letter; the facility has a default. -/
  queue : Option String := none
  timeoutSecs : UInt64 := 10
  deriving DecidableEq, Repr

/-- The names of the hit list and of the table made from it. -/
structure HitListConfig where
  fileName : String := "spamhaus.txt"
  derivedCsv : String := "spamhaus.csv"
  deriving DecidableEq, Repr

namespace HitListConfig

/-- Is it the name of one of the two files? -/
def owns (h : HitListConfig) (fileName : String) : Bool :=
  fileName == h.fileName || fileName == h.derivedCsv

/-- The names no job may claim. -/
def reserved (h : HitListConfig) : List String :=
  [h.fileName, h.derivedCsv]

end HitListConfig

/-- When a sweep takes a worker for dead. -/
structure SweepConfig where
  staleAfterSecs : UInt64 := 900
  deriving DecidableEq, Repr

namespace SweepConfig

/-- The limit in nanoseconds. -/
def staleAfter (s : SweepConfig) : Nat :=
  s.staleAfterSecs.toNat * perSecond

end SweepConfig

/-- A configuration. -/
structure Config where
  version : String
  /-- The folder below which every principal has its own. -/
  jobRoot : Path
  worker : WorkerConfig := {}
  ping : PingConfig := {}
  scheduler : SchedulerConfig := {}
  hitList : HitListConfig := {}
  sweep : SweepConfig := {}
  deriving DecidableEq, Repr

namespace Config

/-- The version of a configuration that is understood. -/
def currentVersion : String := "1.0"

/-- The configuration with a job root and nothing else. -/
def withJobRoot (root : Path) : Config :=
  { version := currentVersion, jobRoot := root }

/-- The store that a configuration describes. -/
def store (c : Config) : Store :=
  ⟨c.jobRoot⟩

/-- A configuration as a JSON object. -/
def toJson (c : Config) : Json.Value :=
  .object [
    ("version", .text c.version),
    ("job_root_directory", .text c.jobRoot.text),
    ("worker", .object [("executable", .text c.worker.executable), ("args", .texts c.worker.args)]),
    ("ping", .object [
      ("retry_count", .nat c.ping.retryCount.toNat),
      ("pause_millis", .number (.natural c.ping.pauseMillis))]),
    ("scheduler", .object [
      ("at_command", .text c.scheduler.atCommand),
      ("atq_command", .text c.scheduler.atqCommand),
      ("atrm_command", .text c.scheduler.atrmCommand),
      ("queue", .orNull (c.scheduler.queue.map .text)),
      ("timeout_secs", .number (.natural c.scheduler.timeoutSecs))]),
    ("hit_list", .object [
      ("file_name", .text c.hitList.fileName), ("derived_csv", .text c.hitList.derivedCsv)]),
    ("reconcile", .object [("stale_after_secs", .number (.natural c.sweep.staleAfterSecs))])]

end Config
end JobSpool
