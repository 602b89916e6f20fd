/-
# The command line of a worker

`WorkerCommand` and its `build`: `SPEC_FULL.md`, 6 and E5.

A job runs as one line with two commands: the worker on the input, and the removal of
the input once the worker is through. Every word that is not fixed is quoted for the
shell.
-/

import JobSpool.Config
import JobSpool.Job
import JobSpool.Shell

namespace JobSpool
namespace WorkerCommand

/-- The arguments that a kind of job adds. -/
def kindArgs : JobKind → List String
  | .profile => []
  | .ping retryCount pauseMillis =>
    ["-r" ++ retryCount.toNat.repr, "-p" ++ Text.writeCount pauseMillis]

/-- `build`: the line that runs the worker on an input in the folder of a principal. -/
def line (worker : WorkerConfig) (kind : JobKind) (folder input : Path) : String :=
  let run :=
    [Shell.quote worker.executable] ++ worker.args.map Shell.quote ++
      ["-j", Shell.quote folder.text] ++ kindArgs kind ++ [Shell.quote input.text]
  " ".intercalate run ++ "; rm -f " ++ Shell.quote input.text

end WorkerCommand
end JobSpool
