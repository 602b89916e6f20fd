/-
# A submission and a sweep, step by step

`submit_text` and `reconcile` at the same time: `SPEC_FULL.md`, 5, "there is no other
locking".

A submission and a sweep of the same folder are not kept apart by any lock: two programs that share
a job root may be at it at the same time.  Here both of them are taken apart into steps that happen
as a whole, in any order (`Race.run`).  A submission creates its input, fills it, and has it
scheduled, on a medium that may refuse any of this.  A sweep asks the scheduler what it holds, lists
the folder and decides by the two what goes, and then removes one file after the other.

A submission that is alone does what `Spool.submitText` does (`Race.run_submission_alone`), and a
sweep that is alone leaves the files that `Spool.reconcile` leaves (`Race.exists_run_sweep_alone`).
-/

import JobSpool.Proofs.Deposits

namespace JobSpool

open Files (Tree Place File Object Medium)

/-- Somebody who submits a text, and somebody who sweeps the folder at the same time. -/
structure Race where
  owner : Principal
  config : Config
  moment : Moment
  plain : moment.HasPlainTokens
  text : String
  /-- The input is stored on a medium. -/
  medium : Medium := .intact
  sweepConfig : Config
  sweptAt : Instant
  /-- The two of them share the job root. -/
  shared : sweepConfig.store = config.store

namespace Race

/-- Who takes a step. -/
inductive Party
  | submitter
  | sweeper
  deriving DecidableEq, Repr

/-- How far the submission has come. -/
inductive SubmissionStage
  | waiting
  | created (folder input : Path)
  | filled (folder input : Path)
  | done (answer : Except Error Job)

/-- How far the sweep has come. -/
inductive SweepStage
  | waiting
  | asked (answer : Except SchedulerError PendingQueue)
  /-- These files are to be removed. -/
  | removing (answer : Except SchedulerError PendingQueue) (doomed : List Entry)
  | done

/-- The spool, and how far the two parties have come. -/
structure World where
  files : Tree
  scheduler : MemoryScheduler
  submission : SubmissionStage
  sweep : SweepStage

variable (r : Race)

/-- The folder that both of them are in. -/
def folder : Path :=
  r.config.store.folder r.owner

/-- What the input is to hold. -/
def content : ByteArray :=
  (Spool.endedLine r.text).toByteArray

/-- A way to fill the input. -/
def write (input : Path) (t : Tree) : Except StorageError Tree :=
  Store.writeInput input r.content r.moment.now t r.medium

/-- The first step of the submission: an empty file is created, under a generated name. -/
def create (w : World) : World :=
  if Text.isBlankText r.text then
    { w with submission := .done (.error (.submission .emptyInput)) }
  else
    match r.config.store.ensureFolder r.owner w.files r.medium with
    | (.error cause, t) => { w with files := t, submission := .done (.error (.storage cause)) }
    | (.ok folder, t) =>
      match Store.createUnique folder JobKind.profile.nameStart r.moment.now r.moment.token t with
      | .error cause => { w with files := t, submission := .done (.error (.storage cause)) }
      | .ok (input, made) =>
        match r.medium.refusal? .create input with
        | some cause =>
          { w with
            files := t
            submission := .done (.error (.storage (.create input (.system cause)))) }
        | none => { w with files := made, submission := .created folder input }

/-- The second step: the file gets its content, or is dropped. -/
def fillInput (folder input : Path) (w : World) : World :=
  match Spool.fill input r.write w.files r.medium with
  | (.error cause, t) => { w with files := t, submission := .done (.error (.storage cause)) }
  | (.ok (), t) => { w with files := t, submission := .filled folder input }

/-- The third step: the scheduler is to run the worker. -/
def schedule (folder input : Path) (w : World) : World :=
  let (answer, s) := Spool.schedule r.config r.moment.now r.owner .profile folder input
    ⟨w.files, w.scheduler⟩
  { w with files := s.files, scheduler := s.scheduler, submission := .done answer }

/-- The submission takes a step. -/
def submit (w : World) : World :=
  match w.submission with
  | .waiting => r.create w
  | .created folder input => r.fillInput folder input w
  | .filled folder input => r.schedule folder input w
  | .done _ => w

/-- The sweep takes a step. -/
def sweepOn (w : World) : World :=
  match w.sweep with
  | .waiting =>
    if w.files.isFolder (r.sweepConfig.store.folder r.owner) then
      let (answer, scheduler) := MemoryScheduler.pending r.sweptAt w.scheduler
      { w with scheduler, sweep := .asked answer }
    else { w with sweep := .done }
  | .asked answer =>
    match Store.list (r.sweepConfig.store.folder r.owner) w.files with
    | .error _ => { w with sweep := .done }
    | .ok entries =>
      { w with sweep := .removing answer (Spool.sweptFiles r.sweepConfig
          (Spool.policyOf r.sweepConfig r.sweptAt answer) entries) }
  | .removing _ [] => { w with sweep := .done }
  | .removing answer (e :: doomed) =>
    { w with files := (Store.removeEntry e w.files).2, sweep := .removing answer doomed }
  | .done => w

/-- One of the parties takes a step. -/
def step (w : World) : Party → World
  | .submitter => r.submit w
  | .sweeper => r.sweepOn w

/-- Both of them are about to start. -/
def World.start (s : Spool MemoryScheduler) : World :=
  ⟨s.files, s.scheduler, .waiting, .waiting⟩

/-- The parties take their steps in some order. -/
def run (s : Spool MemoryScheduler) (order : List Party) : World :=
  order.foldl r.step (.start s)

/-- One step more is taken where the others have led. -/
theorem run_concat (s : Spool MemoryScheduler) (order : List Party) (party : Party) :
    r.run s (order ++ [party]) = r.step (r.run s order) party := by
  rw [run, List.foldl_append]
  rfl

/-! ### Each party alone -/

section Alone

variable {r} {w : World}

/-- A submission that waits creates its input next, -/
theorem submit_of_waiting (h : w.submission = .waiting) : r.submit w = r.create w := by
  rw [submit, h]

/-- then fills it, -/
theorem submit_of_created {folder input : Path} (h : w.submission = .created folder input) :
    r.submit w = r.fillInput folder input w := by
  rw [submit, h]

/-- then has it scheduled, -/
theorem submit_of_filled {folder input : Path} (h : w.submission = .filled folder input) :
    r.submit w = r.schedule folder input w := by
  rw [submit, h]

/-- and then does nothing more. -/
theorem submit_of_done {answer : Except Error Job} (h : w.submission = .done answer) :
    r.submit w = w := by
  rw [submit, h]

/-! The sweep goes on from where it is, too. -/

/-- A sweep asks the scheduler first, if there is a folder to sweep, -/
theorem sweepOn_of_waiting (h : w.sweep = .waiting)
    (hfolder : w.files.isFolder (r.sweepConfig.store.folder r.owner) = true) :
    r.sweepOn w
      = { w with sweep := .asked (MemoryScheduler.pending r.sweptAt w.scheduler).1 } := by
  unfold sweepOn
  rw [h]
  dsimp only
  rw [if_pos hfolder, MemoryScheduler.pending_snd]

/-- and is done at once if there is none. -/
theorem sweepOn_of_not_isFolder (h : w.sweep = .waiting)
    (hfolder : w.files.isFolder (r.sweepConfig.store.folder r.owner) = false) :
    r.sweepOn w = { w with sweep := .done } := by
  unfold sweepOn
  rw [h]
  dsimp only
  rw [if_neg (by simp [hfolder])]

/-- A sweep that cannot list the folder is done. -/
theorem sweepOn_of_list_error {answer : Except SchedulerError PendingQueue} {cause : StorageError}
    (h : w.sweep = .asked answer)
    (hlist : Store.list (r.sweepConfig.store.folder r.owner) w.files = .error cause) :
    r.sweepOn w = { w with sweep := .done } := by
  unfold sweepOn
  rw [h]
  dsimp only
  rw [hlist]

/-- A sweep that lists the folder decides what goes, by the answer that it was given before. -/
theorem sweepOn_of_list_ok {answer : Except SchedulerError PendingQueue} {entries : List Entry}
    (h : w.sweep = .asked answer)
    (hlist : Store.list (r.sweepConfig.store.folder r.owner) w.files = .ok entries) :
    r.sweepOn w = { w with
      sweep := .removing answer (Spool.sweptFiles r.sweepConfig
        (Spool.policyOf r.sweepConfig r.sweptAt answer) entries) } := by
  unfold sweepOn
  rw [h]
  dsimp only
  rw [hlist]

/-- A sweep is done when nothing is left to be removed. -/
theorem sweepOn_of_removing_nil {answer : Except SchedulerError PendingQueue}
    (h : w.sweep = .removing answer []) : r.sweepOn w = { w with sweep := .done } := by
  rw [sweepOn, h]

/-- A sweep removes one file at a time. -/
theorem sweepOn_of_removing_cons {answer : Except SchedulerError PendingQueue} {e : Entry}
    {doomed : List Entry} (h : w.sweep = .removing answer (e :: doomed)) :
    r.sweepOn w = { w with
      files := (Store.removeEntry e w.files).2
      sweep := .removing answer doomed } := by
  rw [sweepOn, h]

/-- A sweep that is done does nothing more. -/
theorem sweepOn_of_done (h : w.sweep = .done) : r.sweepOn w = w := by
  rw [sweepOn, h]

end Alone

/-- **Two steps of a submission store its input.** -/
theorem submit_create_eq (s : Spool MemoryScheduler) (hblank : Text.isBlankText r.text = false) :
    r.submit (r.create (.start s)) =
      match Spool.storeInput r.config r.owner (fun folder => Store.createUnique folder
          JobKind.profile.nameStart r.moment.now r.moment.token) r.write s.files r.medium with
      | (.error cause, t) =>
        { World.start s with files := t, submission := .done (.error (.storage cause)) }
      | (.ok (folder, input), t) =>
        { World.start s with files := t, submission := .filled folder input } := by
  have hnot : ¬ Text.isBlankText r.text = true := by simp [hblank]
  unfold create Spool.storeInput World.start
  rw [if_neg hnot]
  cases r.config.store.ensureFolder r.owner s.files r.medium with
  | mk answer t =>
    cases answer with
    | error cause => exact submit_of_done rfl
    | ok folder =>
      dsimp only
      cases Store.createUnique folder JobKind.profile.nameStart r.moment.now r.moment.token t with
      | error cause => exact submit_of_done rfl
      | ok made =>
        obtain ⟨input, t₁⟩ := made
        dsimp only
        cases r.medium.refusal? .create input with
        | some cause => exact submit_of_done rfl
        | none =>
          dsimp only
          rw [submit_of_created rfl]
          unfold fillInput
          dsimp only
          cases Spool.fill input r.write t₁ r.medium with
          | mk filled t₂ =>
            cases filled with
            | error cause => rfl
            | ok _ => rfl

/-- **A submission that is alone** is a submission. -/
theorem run_submission_alone (s : Spool MemoryScheduler) :
    r.run s [.submitter, .submitter, .submitter] =
      { files := (Spool.submitText r.config r.moment r.owner r.text s r.medium).2.files
        scheduler := (Spool.submitText r.config r.moment r.owner r.text s r.medium).2.scheduler
        submission := .done (Spool.submitText r.config r.moment r.owner r.text s r.medium).1
        sweep := .waiting } := by
  have hrun : r.run s [.submitter, .submitter, .submitter]
      = r.submit (r.submit (r.create (.start s))) := rfl
  rw [hrun]
  unfold Spool.submitText
  cases hblank : Text.isBlankText r.text with
  | true =>
    have hcreate : r.create (.start s)
        = { World.start s with submission := .done (.error (.submission .emptyInput)) } := by
      unfold create
      rw [if_pos hblank]
    rw [hcreate, submit_of_done rfl, submit_of_done rfl]
    rfl
  | false =>
    have henqueue : (fun input t => Store.writeInput input (Spool.endedLine r.text).toByteArray
        r.moment.now t r.medium) = r.write := rfl
    rw [r.submit_create_eq s hblank]
    unfold Spool.enqueueText
    rw [henqueue]
    cases hstore : Spool.storeInput r.config r.owner (fun folder => Store.createUnique folder
        JobKind.profile.nameStart r.moment.now r.moment.token) r.write s.files r.medium with
    | mk stored t =>
      cases stored with
      | error cause =>
        rw [if_neg Bool.false_ne_true, Submission.enqueue_of_error hstore, submit_of_done rfl]
        rfl
      | ok made =>
        rw [if_neg Bool.false_ne_true, Submission.enqueue_of_ok hstore, submit_of_filled rfl]
        rfl

/-- Removing files of a listing takes one step for each. -/
theorem foldl_sweep_removing {w : World} {answer : Except SchedulerError PendingQueue}
    {doomed : List Entry} (hsweep : w.sweep = .removing answer doomed) :
    (List.replicate (doomed.length + 1) Party.sweeper).foldl r.step w
      = { w with files := (Store.removeEntries doomed w.files).2, sweep := .done } := by
  induction doomed generalizing w with
  | nil => exact sweepOn_of_removing_nil hsweep
  | cons e doomed ih =>
    have hrest : (Store.removeEntries (e :: doomed) w.files).2
        = (Store.removeEntries doomed (Store.removeEntry e w.files).2).2 := rfl
    rw [List.length_cons, List.replicate_succ, List.foldl_cons, step,
      sweepOn_of_removing_cons hsweep, ih rfl, hrest]

/-- **A sweep that is alone** leaves the files that reconciling leaves. -/
theorem exists_run_sweep_alone (s : Spool MemoryScheduler) :
    ∃ n, r.run s (List.replicate n .sweeper) =
      { files := (Spool.reconcile r.sweepConfig r.sweptAt r.owner s).2.files
        scheduler := (Spool.reconcile r.sweepConfig r.sweptAt r.owner s).2.scheduler
        submission := .waiting
        sweep := .done } := by
  unfold Spool.reconcile
  dsimp only
  cases hfolder : s.files.isFolder (r.sweepConfig.store.folder r.owner) with
  | false =>
    have hstep : r.sweepOn (.start s) = { World.start s with sweep := .done } :=
      sweepOn_of_not_isFolder rfl hfolder
    exact ⟨1, hstep⟩
  | true =>
    have hask : r.sweepOn (.start s) = { World.start s with
        sweep := .asked (MemoryScheduler.pending r.sweptAt s.scheduler).1 } :=
      sweepOn_of_waiting rfl hfolder
    have hpending : Scheduler.pending s.files r.sweptAt s.scheduler
        = MemoryScheduler.pending r.sweptAt s.scheduler := rfl
    rw [hpending, MemoryScheduler.pending_snd, if_neg (by simp)]
    have hfiles : (s.withScheduler s.scheduler).files = s.files := rfl
    rw [hfiles]
    cases hlist : Store.list (r.sweepConfig.store.folder r.owner) s.files with
    | error cause =>
      have hstep : r.sweepOn (r.sweepOn (.start s)) = { World.start s with sweep := .done } := by
        rw [hask]
        exact sweepOn_of_list_error rfl hlist
      exact ⟨2, hstep⟩
    | ok entries =>
      let policy := Spool.policyOf r.sweepConfig r.sweptAt
        (MemoryScheduler.pending r.sweptAt s.scheduler).1
      have hstep : r.sweepOn (r.sweepOn (.start s)) = { World.start s with
          sweep := .removing (MemoryScheduler.pending r.sweptAt s.scheduler).1
            (Spool.sweptFiles r.sweepConfig policy entries) } := by
        rw [hask]
        exact sweepOn_of_list_ok rfl hlist
      -- Two steps to ask and to list, one for each file, and one to notice that none is left.
      refine ⟨2 + ((Spool.sweptFiles r.sweepConfig policy entries).length + 1), ?_⟩
      have hsplit : r.run s (List.replicate (2 + ((Spool.sweptFiles r.sweepConfig policy
          entries).length + 1)) .sweeper)
          = (List.replicate ((Spool.sweptFiles r.sweepConfig policy entries).length + 1)
            Party.sweeper).foldl r.step (r.sweepOn (r.sweepOn (.start s))) := by
        rw [run, List.replicate_add, List.foldl_append]
        rfl
      have hswept := Spool.files_sweepEntries r.sweepConfig policy entries s.files
      rw [hsplit, hstep, r.foldl_sweep_removing rfl]
      exact congrArg (fun t => (⟨t, s.scheduler, .waiting, .done⟩ : World)) hswept.symm

end Race
end JobSpool
