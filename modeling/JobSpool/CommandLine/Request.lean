/-
# Requests

The commands of `SPEC_FULL.md`, E10, from `submit` to `hit-list`.

The command of the program works for one principal, and each of its subcommands is one
request to the spool. `grammar` and `subcommands` describe the words, and `Request.ofWords`
turns them into a request. The options for the configuration, for JSON output and for
a verbose log may stand anywhere; for one that is given twice, the later place counts.
-/

import JobSpool.CommandLine.Grammar

namespace JobSpool
namespace CommandLine

/-- What is asked for. -/
inductive Task where
  /-- The file is preferred to the words, and the input of the program to no words. -/
  | submit (file : Option String) (words : List String)
  | ping (domains : List String) (retryCount : Option UInt32) (pauseMillis : Option UInt64)
  | list
  | progress (stem : String)
  | delete (stems : List String)
  | pending
  | cancel (tickets : List String)
  | reconcile
  | hitList
  deriving DecidableEq, Repr

/-- A request. -/
structure Request where
  config : Option String
  json : Bool
  principal : String
  task : Task
  deriving DecidableEq, Repr

/-! ### Values -/

/-- Does a word name a file? -/
def acceptsPath (word : String) : Bool :=
  !word.isEmpty

/-- The largest number of retries. -/
def retryLimit : Nat := 99

/-- The longest pause, in milliseconds. -/
def pauseLimit : Nat := 9999

/-- The number that a word with an optional sign spells, if it is not below zero. -/
def signed? (word : String) : Option Nat :=
  match word.toList with
  | '-' :: digits => if Text.readDigits? digits = some 0 then some 0 else none
  | cs => Text.readDigits? (Text.dropPlus cs)

/-- Is a word a number of retries? -/
def acceptsRetry (word : String) : Bool :=
  (signed? word).any (· ≤ retryLimit)

/-- Is a word a pause? -/
def acceptsPause (word : String) : Bool :=
  (Text.readCount? word.toList).any (·.toNat ≤ pauseLimit)

/-! ### Words -/

/-- The options that may stand anywhere. -/
def everywhere : List OptionSpec :=
  [{ name := "config", effect := .value "CONFIG" acceptsPath,
     about := "Config file; defaults to <config dir>/profq/config.json" },
   { name := "json", effect := .flag,
     about := "Print an \x7bsuccess, data, error\x7d JSON envelope instead of text" },
   { name := "verbose", letter := some 'v', effect := .flag, about := "Debug logging on stderr" },
   { name := "help", letter := some 'h', effect := .help, about := "Print help" }]

/-- The command of the program. -/
def grammar : CommandSpec where
  name := "profq"
  about := "Queue SMTP profiling and blocklist ping jobs"
  own := everywhere ++
    [{ name := "version", letter := some 'V', effect := .version, about := "Print version" }]
  arguments :=
    [{ name := "PRINCIPAL", required := true, many := false, about := "Whose jobs to work on" }]

/-- The subcommand to submit a list. -/
def submitSpec : CommandSpec where
  name := "submit"
  about := "Submit a list of domains or addresses for profiling"
  own :=
    [{ name := "file", effect := .value "FILE" acceptsPath,
       about := "Read the list from this file instead" }]
  shared := everywhere
  arguments :=
    [{ name := "TEXT", required := false, many := true,
       about := "Domains or addresses; stdin is read when none are given" }]
  conflicts := [("file", "TEXT")]

/-- The subcommand to submit a blocklist ping. -/
def pingSpec : CommandSpec where
  name := "ping"
  about := "Submit domains for a blocklist ping"
  own :=
    [{ name := "retry", effect := .value "RETRY" acceptsRetry, about := "Retries per domain" },
     { name := "pause", effect := .value "PAUSE" acceptsPause,
       about := "Pause between domains, in milliseconds" }]
  shared := everywhere
  arguments := [{ name := "DOMAINS", required := true, many := true }]

/-- A subcommand that takes no words of its own. -/
def bareSpec (name about : String) : CommandSpec where
  name := name
  about := about
  shared := everywhere

/-- A subcommand that takes names. -/
def namesSpec (name about argument : String) (many : Bool) : CommandSpec where
  name := name
  about := about
  shared := everywhere
  arguments := [{ name := argument, required := true, many := many }]

/-- The subcommands, in the order of the help. -/
def subcommands : List CommandSpec :=
  [submitSpec,
   pingSpec,
   bareSpec "list" "List queued, running and completed jobs",
   namesSpec "progress" "Show the progress of one job" "STEM" false,
   namesSpec "delete" "Delete every artifact of the given jobs" "STEMS" true,
   bareSpec "pending" "Show the scheduler's pending queue",
   namesSpec "cancel" "Cancel pending scheduler tickets" "TICKETS" true,
   bareSpec "reconcile" "Remove state left behind by interrupted jobs",
   bareSpec "hit-list" "Show the domains on the blocklist hit list"]

/-- The subcommand for help, as it is shown. -/
def helpSpec : CommandSpec where
  name := helpName
  about := "Print this message or the help of the given subcommand(s)"
  arguments :=
    [{ name := "COMMAND", required := false, many := true,
       about := "Print help for the subcommand(s)" }]

/-! ### Requests -/

/-- The task of a subcommand. -/
def task? (name : String) (r : Reading) : Option Task :=
  match name with
  | "submit" => some (.submit (r.value? "file") r.arguments)
  | "ping" =>
    some (.ping r.arguments (((r.value? "retry").bind signed?).map .ofNat)
      ((r.value? "pause").bind fun word => Text.readCount? word.toList))
  | "list" => some .list
  | "progress" => r.arguments.head?.map .progress
  | "delete" => some (.delete r.arguments)
  | "pending" => some .pending
  | "cancel" => some (.cancel r.arguments)
  | "reconcile" => some .reconcile
  | "hit-list" => some .hitList
  | _ => none

/-- The request that some words stand for. -/
def Request.ofWords (words : List String) : Except Stop Request :=
  match readAll grammar subcommands {} words with
  | .error stop => .error stop
  | .ok (outer, sub, inner) =>
    match outer.arguments.head?, task? sub.name inner with
    | some principal, some task =>
      .ok {
        config := (inner.value? "config").or (outer.value? "config")
        json := inner.has "json" || outer.has "json"
        principal := principal
        task := task }
    | _, _ => .error .usage

end CommandLine
end JobSpool
