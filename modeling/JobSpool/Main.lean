/-
# The program

Works on the disk for one principal. The words are read first. Then what the request may
touch is noted in a tree: the configuration, an uploaded file, and the folder of the
principal. The request is worked on that tree, and the disk follows.

Other programs cannot be started from here, so the execution facility is out of reach for
every request: a submission is stored and reported as not scheduled, and a sweep keeps
the inputs that wait.
-/

import JobSpool.CommandLine.Run
import JobSpool.Disk
import Std.Time.DateTime.Timestamp

namespace JobSpool

/-- A scheduler that is out of reach. -/
inductive OutOfReach where
  | outOfReach

namespace OutOfReach

/-- What every call of it answers. -/
def refusal : SchedulerError :=
  .unavailable "programs cannot be started from here"

instance : Scheduler OutOfReach :=
  ⟨fun _ _ s => (.error refusal, s), fun _ _ s => (.error refusal, s),
    fun _ _ s => (.error refusal, s)⟩

end OutOfReach

namespace CommandLine

/-- The folder where programs keep their configuration. -/
def configFolder? (configHome home : Option String) : Option Path :=
  match configHome.map Path.mk with
  | some path => if path.isAbsolute then some path else home.map fun h => (Path.mk h).join ".config"
  | none => home.map fun h => (Path.mk h).join ".config"

/-- A random number as a token of eight hexadecimal digits. -/
def tokenOf (n : Nat) : String :=
  let digits := Nat.toDigits 16 n
  String.ofList (List.replicate (8 - digits.length) '0' ++ digits)

/-- The time and random tokens. -/
def currentMoment : IO Moment := do
  let now ← Std.Time.Timestamp.now
  let tokens ← (List.range Store.uniqueAttempts).mapM fun _ => IO.rand 0 (UInt32.size - 1)
  return { now := now.toNanosecondsSinceUnixEpoch.val, token := fun n => tokenOf (tokens.getD n 0) }

/-- The paths that a request names. -/
def pathsNamed (s : Surroundings) (r : Request) : List Path :=
  (configPath? s r).toList ++
    match r.task with
    | .submit (some file) _ => [⟨file⟩]
    | _ => []

/-- The tree with everything that a request may touch. -/
def treeFor (s : Surroundings) (r : Request) : IO Files.Tree := do
  let home := Disk.placeOf [] ⟨(← IO.currentDir).toString⟩
  let t ← Disk.noteWay { entries := [], home } home
  let t ← ((pathsNamed s r).map (Disk.placeOf home)).foldlM Disk.noteWay t
  match prepare s r t with
  | .error _ => return t
  | .ok (c, p) => Disk.noteFolder t (Disk.placeOf home (c.store.folder p))

/-- Runs a request on the disk. -/
def serveOnDisk (s : Surroundings) (r : Request) : IO Outcome := do
  let t ← treeFor s r
  let (outcome, spool) := serve (fun _ s => s) s r ⟨t, OutOfReach.outOfReach⟩
  (t.changes spool.files).forM (Disk.follow t)
  return outcome

/-- The input of the program, if the request is going to read it. -/
def inputFor (r : Request) : IO ByteArray :=
  match r.task with
  | .submit none [] => do (← IO.getStdin).readBinToEnd
  | _ => return ByteArray.empty

/-- Runs the program on some words. -/
def runProgram (words : List String) : IO Outcome := do
  match Request.ofWords words with
  | .error stop => return .ofStop stop
  | .ok r =>
    let s : Surroundings := {
      configFolder := configFolder? (← IO.getEnv "XDG_CONFIG_HOME") (← IO.getEnv "HOME")
      stdin := ← inputFor r
      moment := ← currentMoment }
    try serveOnDisk s r
    catch e => return { exit := 1, stderr := e.toString ++ "\n" }

end CommandLine
end JobSpool

/-- The program. -/
def main (words : List String) : IO UInt32 := do
  let outcome ← JobSpool.CommandLine.runProgram words
  (← IO.getStdout).putStr outcome.stdout
  (← IO.getStderr).putStr outcome.stderr
  return outcome.exit.toUInt32
