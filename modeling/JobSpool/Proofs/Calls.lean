/-
# What a spool may be asked for

`Call` lists the calls that a spool may get from anyone: submissions of the three kinds,
listings, deletions, dropped tickets and sweeps.  `Call.run` gives the spool after one.

The three kinds of submissions are one: a way to create an input, and a way to fill it with what
it is to hold (`Submission.exists_run_eq`).  So what a submission that succeeds has done is said
once (`Submission.run_eq_ok`), and so is what a submission leaves alone (`Submission.spares_run`):
everything that no name it may choose stands for.
-/

import JobSpool.Proofs.Contents
import JobSpool.Proofs.Removals
import JobSpool.Proofs.Tickets

namespace JobSpool

open Files (Tree Place File Object Medium)

/-! ### The names that may be chosen -/

/-- Are the tokens made of characters that a name keeps? -/
def Moment.HasPlainTokens (m : Moment) : Prop :=
  ∀ n, ∀ c ∈ (m.token n).toList, FileName.isKept c = true

namespace Store

/-- The names that may be generated for an input. -/
def generatedNames (start : String) (m : Moment) : List String :=
  (List.range uniqueAttempts).map fun n => generatedName start m.now (m.token n)

/-- Would a job with a given name adopt no file of a folder, and claim no reserved one? -/
def AdoptsNothing (reserved : List String) (folder : Path) (t : Tree) (name : String) : Prop :=
  ∃ entries, list folder t = .ok entries ∧ (∀ e ∈ entries, e.stem ≠ name) ∧
    claimsReserved reserved name = false

variable {folder : Path}

/-- A generated name is one of the sixteen that the moment may give, and it was free. -/
theorem exists_of_createUnique {start : String} (hstart : IsWord start) {m : Moment}
    (htokens : m.HasPlainTokens) :
    Spool.CreatesInput folder m.now (fun _ name => name ∈ generatedNames start m)
      (fun folder => createUnique folder start m.now m.token) := by
  intro t t' input h
  obtain ⟨name, hmem, rfl, hcreate⟩ := createFirst_eq_ok (orExhausted_eq_ok h)
  obtain ⟨n, -, rfl⟩ := List.mem_map.1 hmem
  exact ⟨_, isWord_generatedName hstart (htokens n), hmem, rfl, hcreate⟩

/-- A name for an upload is one that adopts nothing, and it was free. -/
theorem exists_of_createNamed {base : String} (hbase : IsWord base) {reserved : List String}
    {now : Instant} :
    Spool.CreatesInput folder now (AdoptsNothing reserved folder)
      (fun folder => createNamed folder base reserved now) := by
  intro t t' input h
  dsimp only at h
  unfold createNamed at h
  cases hlist : list folder t with
  | error e =>
    rw [hlist] at h
    cases h
  | ok entries =>
    rw [hlist] at h
    obtain ⟨name, hmem, rfl, hcreate⟩ := createFirst_eq_ok (orExhausted_eq_ok h)
    obtain ⟨⟨n, rfl⟩, hfree, hclaims⟩ := mem_candidates hmem
    exact ⟨_, isWord_candidate hbase n, ⟨entries, hlist, hfree, hclaims⟩, rfl, hcreate⟩

end Store

/-- What generated names start with is a word. -/
theorem JobKind.isWord_nameStart (kind : JobKind) : IsWord kind.nameStart := by
  have hprofile : IsWord "job_" := ⟨by decide, List.all_eq_true.1 (by decide)⟩
  have hping : IsWord "ping_" := ⟨by decide, List.all_eq_true.1 (by decide)⟩
  cases kind with
  | profile => exact hprofile
  | ping retryCount pauseMillis => exact hping

/-! ### Submissions -/

/-- What is submitted: a pasted text, domains to ping, or an upload.  Its input is stored on a
medium. -/
inductive Submission where
  | text (moment : Moment) (pasted : String) (medium : Medium := .intact)
  | ping (moment : Moment) (domains : List String) (retryCount : Option UInt32)
    (pauseMillis : Option UInt64) (medium : Medium := .intact)
  | file (now : Instant) (upload : Upload) (medium : Medium := .intact)

namespace Submission

/-- Submits for a principal. -/
def run {σ : Type} [Scheduler σ] (c : Config) (p : Principal) (sub : Submission) (s : Spool σ) :
    Spool.Answer σ Job :=
  match sub with
  | text m pasted medium => Spool.submitText c m p pasted s medium
  | ping m domains retryCount pauseMillis medium =>
    Spool.submitPing c m p domains retryCount pauseMillis s medium
  | file now upload medium => Spool.submitFile c now p upload s medium

/-- The medium that the input is stored on. -/
def medium : Submission → Medium
  | text _ _ medium => medium
  | ping _ _ _ _ medium => medium
  | file _ _ medium => medium

/-- The names that may be generated for the input.  An upload has a name of its own. -/
def generated : Submission → List String
  | text m _ _ => Store.generatedNames JobKind.profile.nameStart m
  | ping m _ _ _ _ => Store.generatedNames "ping_" m
  | file _ _ _ => []

/-- Are the tokens of the names made of characters that a name keeps? -/
def HasPlainTokens : Submission → Prop
  | text m _ _ => m.HasPlainTokens
  | ping m _ _ _ _ => m.HasPlainTokens
  | file _ _ _ => True

/-- May a name be chosen for the input? -/
def MayChoose (c : Config) (p : Principal) (sub : Submission) (t : Tree) (name : String) : Prop :=
  name ∈ sub.generated ∨ Store.AdoptsNothing c.hitList.reserved (c.store.folder p) t name

/-- The kind of the job.  A ping has configured defaults. -/
def kind (c : Config) : Submission → JobKind
  | text _ _ _ => .profile
  | ping _ _ retryCount pauseMillis _ =>
    .ping (retryCount.getD c.ping.retryCount) (pauseMillis.getD c.ping.pauseMillis)
  | file _ _ _ => .profile

/-- What the input is to hold: a text that ends its last line, the domains line by line, or what
the upload holds. -/
def content (t : Tree) : Submission → ByteArray
  | text _ pasted _ => (Spool.endedLine pasted).toByteArray
  | ping _ domains _ _ _ =>
    (String.join ((Spool.domainLines domains).map (· ++ "\n"))).toByteArray
  | file _ upload _ => ((t.file? upload.source).map File.content).getD ByteArray.empty

section Run

variable {σ : Type} [Scheduler σ] {c : Config} {p : Principal} {sub : Submission}

/-- Writing a content fills an input, whatever the medium refuses. -/
theorem fillsInput_writeInput (folder : Path) (content : ByteArray) (now : Instant)
    (medium : Medium) :
    Spool.FillsInput folder (fun input t => Store.writeInput input content now t medium) :=
  fun hl hn ⟨_, hf⟩ hok => Store.fills_writeInput hl hn (Tree.fileOrFree_of_fileAt? hf) hok

/-- Copying a file fills an input, whatever the medium refuses. -/
theorem fillsInput_copyInput (folder source : Path) (now : Instant) (medium : Medium) :
    Spool.FillsInput folder (fun input t => Store.copyInput source input now t medium) :=
  fun hl hn hfile hok => Store.fills_copyInput hl hn hfile hok

/-- What was written as a content is that content. -/
theorem givesContent_writeInput (folder : Path) (t : Tree) (content : ByteArray) (now : Instant)
    (medium : Medium) : Spool.GivesContent folder t content
      (fun input t => Store.writeInput input content now t medium) :=
  fun _ _ _ hfilled hn hok => Store.filled_writeInput hfilled.leads hfilled.fileOrFree hn hok

/-- What was copied is the content of the file that was copied. -/
theorem givesContent_copyInput (folder : Path) {t : Tree} {source : Path} {f : File}
    (hsource : t.file? source = some f) (now : Instant) (medium : Medium) :
    Spool.GivesContent folder t f.content
      (fun input t => Store.copyInput source input now t medium) :=
  fun hs he hnone hfilled hn hok => Store.filled_copyInput hs hsource he hnone hfilled hn hok

/-- **An upload that is accepted** is a file, and its job has a word for a name. -/
theorem checkUpload_eq_ok {upload : Upload} {t : Tree} {stem : String}
    (h : Spool.checkUpload upload t = .ok stem) :
    IsWord stem ∧ ∃ f, t.file? upload.source = some f := by
  unfold Spool.checkUpload at h
  split at h
  · cases h
  · rename_i f hf
    split at h
    · cases h
    · split at h
      · cases h
      · rename_i hstem
        cases h
        exact ⟨FileName.isWord_of_uploadStem hstem, f, hf⟩

/-- Lines that are joined by line feeds and ended by one are lines that are each ended by one. -/
theorem intercalate_append_lineFeed {lines : List String} (h : lines ≠ []) :
    "\n".intercalate lines ++ "\n" = String.join (lines.map (· ++ "\n")) := by
  apply String.toList_injective
  rw [String.toList_append, String.toList_intercalate, String.toList_join]
  induction lines with
  | nil => exact absurd rfl h
  | cons line lines ih =>
    cases lines with
    | nil => simp
    | cons next lines =>
      have hrest := ih (List.cons_ne_nil _ _)
      simp only [List.map_cons, List.flatMap_cons] at hrest ⊢
      rw [← hrest]
      simp [List.intercalate]

/-- **A submission is rejected before anything is done,** or it stores an input with its content
and schedules the worker on it. -/
theorem exists_run_eq (htokens : sub.HasPlainTokens) (s : Spool σ) :
    (∃ e, sub.run c p s = (.error (.submission e), s)) ∨ ∃ now create write,
      Spool.CreatesInput (c.store.folder p) now (sub.MayChoose c p) create ∧
        Spool.FillsInput (c.store.folder p) write ∧
          Spool.GivesContent (c.store.folder p) s.files (sub.content s.files) write ∧
            sub.run c p s = Spool.enqueue c now p (sub.kind c) create write s sub.medium := by
  cases sub with
  | text m pasted medium =>
    rw [run, Spool.submitText]
    split
    · exact Or.inl ⟨_, rfl⟩
    · refine Or.inr ⟨_, _, _, fun h => ?_, fillsInput_writeInput _ _ _ _,
        givesContent_writeInput _ _ _ _ _, rfl⟩
      obtain ⟨name, hword, hmem, hrest⟩ :=
        Store.exists_of_createUnique (JobKind.isWord_nameStart .profile) htokens h
      exact ⟨name, hword, Or.inl hmem, hrest⟩
  | ping m domains retryCount pauseMillis medium =>
    rw [run, Spool.submitPing]
    dsimp only
    split
    · exact Or.inl ⟨_, rfl⟩
    · rename_i hlines
      -- The lines are joined with line feeds, and one more is put at the end.
      have hcontent := intercalate_append_lineFeed (mt List.isEmpty_iff.2 hlines)
      refine Or.inr ⟨_, _, _, fun h => ?_, fillsInput_writeInput _ _ _ _,
        hcontent ▸ givesContent_writeInput _ _ _ _ _, rfl⟩
      obtain ⟨name, hword, hmem, hrest⟩ :=
        Store.exists_of_createUnique (JobKind.isWord_nameStart (.ping 0 0)) htokens h
      exact ⟨name, hword, Or.inl hmem, hrest⟩
  | file now upload medium =>
    rw [run, Spool.submitFile]
    cases hcheck : Spool.checkUpload upload s.files with
    | error cause => exact Or.inl ⟨_, rfl⟩
    | ok stem =>
      obtain ⟨hstem, f, hf⟩ := checkUpload_eq_ok hcheck
      have hcontent : content s.files (.file now upload medium) = f.content := by
        rw [content, hf]
        rfl
      refine Or.inr ⟨_, _, _, fun h => ?_, fillsInput_copyInput _ _ _ _,
        hcontent ▸ givesContent_copyInput _ hf _ _, rfl⟩
      obtain ⟨name, hword, hadopts, hrest⟩ := Store.exists_of_createNamed hstem h
      exact ⟨name, hword, Or.inr hadopts, hrest⟩

/-- Scheduling the worker changes no file. -/
theorem files_schedule (now : Instant) (kind : JobKind) (folder input : Path) (s : Spool σ) :
    (Spool.schedule c now p kind folder input s).2.files = s.files := by
  unfold Spool.schedule
  dsimp only
  split <;> rfl

/-- Of a submission, only the storing of its input touches files. -/
theorem files_enqueue (now : Instant) (kind : JobKind)
    (create : Path → Tree → Except StorageError (Path × Tree))
    (write : Path → Tree → Except StorageError Tree) (s : Spool σ) (medium : Medium) :
    (Spool.enqueue c now p kind create write s medium).2.files
      = (Spool.storeInput c p create write s.files medium).2 := by
  unfold Spool.enqueue
  split
  · rename_i hstore
    rw [hstore]
    rfl
  · rename_i hstore
    rw [hstore, files_schedule]
    rfl

/-- **A submission leaves alone what no name that it may choose stands for,** whether it succeeds
or not, if making sure of the folder does. -/
theorem spares_run {guarded : Place → Prop} {s : Spool σ} (hs : s.files.Sound)
    (htokens : sub.HasPlainTokens)
    (hmade : Tree.Spares guarded s.files (c.store.ensureFolder p s.files sub.medium).2)
    (hchosen : ∀ t place mode name, Tree.Spares guarded s.files t →
      t.Leads (c.store.folder p) place mode → IsWord name → sub.MayChoose c p t name →
        ¬ guarded (place ++ [.text name])) :
    Tree.Spares guarded s.files (sub.run c p s).2.files := by
  rcases exists_run_eq (c := c) (p := p) htokens s with
    ⟨e, hrun⟩ | ⟨now, create, write, hcreate, hwrite, -, hrun⟩
  · rw [hrun]
    exact Tree.Spares.refl guarded hs
  · rw [hrun, files_enqueue]
    exact hmade.trans (Spool.spares_of_ensureFolder hs hcreate hwrite
      fun place mode name => hchosen _ place mode name hmade)

end Run

section Remembered

variable {c : Config} {p : Principal} {sub : Submission} {s s' : Spool MemoryScheduler}

/-- A submission keeps a ticket held that was held before. -/
theorem holds_enqueue {ticket : Ticket} (now : Instant) (kind : JobKind)
    (create : Path → Tree → Except StorageError (Path × Tree))
    (write : Path → Tree → Except StorageError Tree) (medium : Medium)
    (h : s.scheduler.Holds ticket) :
    (Spool.enqueue c now p kind create write s medium).2.scheduler.Holds ticket := by
  unfold Spool.enqueue
  split
  · exact h
  · rename_i folder input t hstore
    have hsubmit := MemoryScheduler.holds_submit (WorkerCommand.line c.worker kind folder input) h
    unfold Spool.schedule
    dsimp only
    split
    · rename_i cause scheduler hrefused
      have heq : (MemoryScheduler.submit (WorkerCommand.line c.worker kind folder input)
        s.scheduler) = (.error cause, scheduler) := hrefused
      rw [heq] at hsubmit
      exact hsubmit
    · rename_i taken scheduler htaken
      have heq : (MemoryScheduler.submit (WorkerCommand.line c.worker kind folder input)
        s.scheduler) = (.ok taken, scheduler) := htaken
      rw [heq] at hsubmit
      exact hsubmit

/-- **A submission leaves every ticket held.** -/
theorem holds_run {ticket : Ticket} (htokens : sub.HasPlainTokens)
    (h : s.scheduler.Holds ticket) : (sub.run c p s).2.scheduler.Holds ticket := by
  rcases exists_run_eq (c := c) (p := p) htokens s with
    ⟨e, hrun⟩ | ⟨now, create, write, -, -, -, hrun⟩
  · rw [hrun]
    exact h
  · rw [hrun]
    exact holds_enqueue now (sub.kind c) create write sub.medium h

/-- **What a submission that succeeds has done:** the job's ticket is held, and the job's input was
stored under a name that was chosen. -/
theorem run_eq_ok (hs : s.files.Sound) (htokens : sub.HasPlainTokens) {job : Job}
    (hrun : sub.run c p s = (.ok job, s')) :
    (∃ ticket, job.ticket = some ticket ∧ s'.scheduler.Holds ticket) ∧
      ∃ t place mode, sub.MayChoose c p t job.id ∧
        Spool.Stored (c.store.folder p) t s'.files place mode job.id := by
  rcases exists_run_eq (c := c) (p := p) htokens s with
    ⟨e, heq⟩ | ⟨now, create, write, hcreate, hwrite, -, heq⟩
  · rw [heq] at hrun
    cases hrun
  · rw [heq] at hrun
    unfold Spool.enqueue at hrun
    split at hrun
    · cases hrun
    · rename_i folder input t hstore
      obtain ⟨rfl, t₁, place, mode, name, hchosen, rfl, hstored⟩ :=
        Spool.storeInput_eq_ok hs hcreate hwrite hstore
      unfold Spool.schedule at hrun
      dsimp only at hrun
      split at hrun
      · cases hrun
      · rename_i ticket scheduler hsubmit
        have hheld : scheduler.Holds ticket := MemoryScheduler.holds_of_submit hsubmit
        have hname : ((c.store.folder p).join name).shownName = name :=
          shownName_join (Spool.text_folder_ne_nil c p) hstored.word.isStep
        cases hrun
        refine ⟨⟨ticket, rfl, hheld⟩, t₁, place, mode, ?_, ?_⟩
        · rw [hname]
          exact hchosen
        · rw [hname]
          exact hstored

end Remembered

end Submission

/-! ### Calls -/

/-- What a spool may be asked for. -/
inductive Call where
  | submit (p : Principal) (sub : Submission)
  | listJobs (p : Principal)
  | progressOf (p : Principal) (stem : String)
  | deleteJob (p : Principal) (stem : String)
  | deleteJobs (p : Principal) (stems : List String)
  | cancelPending (tickets : List Ticket)
  | pendingQueue (now : Instant)
  | reconcile (p : Principal) (now : Instant)

namespace Call

/-- The spool after a call.  A call that only tells something gives no other spool. -/
def run {σ : Type} [Scheduler σ] (c : Config) : Call → Spool σ → Spool σ
  | submit p sub, s => (sub.run c p s).2
  | listJobs _, s => s
  | progressOf _ _, s => s
  | deleteJob p stem, s =>
    s.withFiles (Spool.treeAfter s.files (Spool.deleteJob c p stem s.files))
  | deleteJobs p stems, s => s.withFiles (Spool.deleteJobs c p stems s.files).2
  | cancelPending tickets, s => (s.cancelPending tickets).2
  | pendingQueue now, s => (s.pendingQueue now).2
  | reconcile p now, s => (s.reconcile c now p).2

end Call
end JobSpool
