/-
# A live job runs undisturbed

The control flow of `SPEC_FULL.md`, 2, and the end-to-end scenario of 8.

A job begins to live with a submission that succeeds (`LiveJob.Begins`).  Besides, it needs some
things of the file system that no call sees to (`LiveJob.Need`): its owner's folder is the owner's
alone and can be listed, nothing has the name of its progress file yet and no link that of a result,
and the name of the progress file is not too long.

Where these needs are met right after the submission, the files of the job, its ticket and the phase
of its worker belong together from then on (`exists_agrees`), whatever the worker and others do.

Then the listing shows the job once, in the section that the phase of its worker has
(`shows_of_agrees`): it is queued until progress is told, then running with the last counts,
and completed with all its links once the progress file is gone.  And no call that is allowed
touches its files.  Both together are `LiveJob.Undisturbed`, and `live_job_undisturbed` says that
every run keeps it.
-/

import JobSpool.Proofs.LiveSteps

namespace JobSpool

open Files (Tree Place File Object)

namespace LiveJob

variable {j : LiveJob} {here : Place} {mode : Nat} {t : Tree}

/-! ### What the listing shows -/

/-- The files of a listing that are the job's. -/
def filesIn (j : LiveJob) (entries : List Entry) : JobFiles :=
  JobFiles.group (Spool.jobEntries j.config entries) j.stem

section Listed

variable {entries : List Entry}

/-- The listing of the folder finds an artifact of the job exactly if its file is there. -/
theorem has_filesIn (hj : j.IsProper mode) (hhoused : j.IsHoused here mode t)
    (hentries : Store.list j.folder t = .ok entries) {a : Artifact} (ha : a ∈ artifacts) :
    (j.filesIn entries).has a
      = (t.fileAt? here (a.fileName j.stem)).isSome := by
  have hiff := Spool.has_group_iff (c := j.config) hhoused.leads hentries (ne_unrecognized ha)
    (hj.split_fileName ha)
  rw [hj.jobFile?_eq ha] at hiff
  rw [filesIn, Bool.eq_iff_iff, hiff, Option.isSome_iff_exists]

/-- **The state that the files of a phase have** is the phase's. -/
theorem state?_filesIn (hj : j.IsProper mode) (hhoused : j.IsHoused here mode t) {phase : Phase}
    (hfiles : j.HasFiles here t phase) (hentries : Store.list j.folder t = .ok entries) :
    (j.filesIn entries).state? = some phase.state := by
  have hhas : ∀ {a : Artifact}, a ∈ artifacts →
      (j.filesIn entries).has a
        = (t.fileAt? here (a.fileName j.stem)).isSome :=
    fun ha => has_filesIn hj hhoused hentries ha
  have hprogress : phase.last? = none → (j.filesIn entries).has .progress = false := by
    intro hlast
    rw [hhas mem_artifacts_progress, Tree.fileAt?, hfiles.noProgress hlast]
    rfl
  -- Before the worker tells its progress there are no results, and after it all of them.
  have hearly : phase.isEarly = true → phase.last? = none → phase.hasInput = true →
      (j.filesIn entries).state? = some .queued := by
    intro hphase hlast hinput
    refine JobFiles.state?_eq_queued (hprogress hlast) (fun a ha => ?_) ?_
    · rw [hhas (mem_artifacts_of_mem_results ha), hfiles.noResults hphase a ha]
      rfl
    · rw [hhas mem_artifacts_input, hfiles.input, hinput]
  have hlate : phase.isLate = true → phase.last? = none →
      (j.filesIn entries).state? = some .completed := by
    intro hphase hlast
    refine JobFiles.state?_eq_completed (hprogress hlast) fun a ha => ?_
    rw [hhas (mem_artifacts_of_mem_results ha)]
    exact hfiles.results hphase a ha
  cases phase with
  | waiting => exact hearly rfl rfl rfl
  | started => exact hearly rfl rfl rfl
  | running last =>
    obtain ⟨f, hf, -⟩ := hfiles.progress last rfl
    have htold : (j.filesIn entries).has .progress = true := by
      rw [hhas mem_artifacts_progress, hf]
      rfl
    rw [JobFiles.state?, htold]
    rfl
  | completed => exact hlate rfl rfl
  | cleaned => exact hlate rfl rfl
  | finished => exact hlate rfl rfl

/-- **The progress that is shown** is what the worker told last. -/
theorem read?_path (hj : j.IsProper mode) (hhoused : j.IsHoused here mode t) {phase : Phase}
    (hfiles : j.HasFiles here t phase) {last : Progress} (hlast : phase.last? = some last) :
    ProgressFile.read? t (j.path .progress) = some last := by
  obtain ⟨f, hf, hcontent, hmode⟩ := hfiles.progress last hlast
  have hfind := Tree.find_join_of_maySearch hhoused.leads hf
    (hj.told.refusal?_eq_none hhoused.leads) hj.searchable
  have hread : (Object.file f).mayRead = true := by
    rw [Object.mayRead, Object.mode, hmode]
    decide
  have htext : t.readText (j.path .progress) = .ok last.line := by
    rw [Tree.readText, Tree.read, Tree.opened, path, hfind]
    simp only [hread, if_true, hcontent, Text.strict_toByteArray]
  rw [ProgressFile.read?, htext]
  exact Progress.ofText?_line last

/-- The listing shows the progress that the worker has told last. -/
theorem shownProgress_filesIn (hj : j.IsProper mode) (hhoused : j.IsHoused here mode t)
    {phase : Phase} (hfiles : j.HasFiles here t phase)
    (hentries : Store.list j.folder t = .ok entries) :
    Spool.shownProgress t (j.filesIn entries) phase.state
      = phase.last? := by
  cases phase with
  | running last =>
    obtain ⟨f, hf, -⟩ := hfiles.progress last rfl
    have hget := (Spool.get?_group_eq_some_iff (c := j.config) hhoused.leads hentries
      (ne_unrecognized mem_artifacts_progress)
      (hj.split_fileName mem_artifacts_progress)).2
        ⟨f, (hj.jobFile?_eq mem_artifacts_progress _).trans hf, rfl⟩
    rw [Phase.state, Spool.shownProgress, filesIn, hget]
    exact read?_path hj hhoused hfiles rfl
  | _ => rfl

/-- Does a summary show a job in a phase of its worker? -/
structure Shows (p : Principal) (stem : String) (phase : Phase) (summary : JobSummary) : Prop where
  state : summary.state = phase.state
  progress : summary.progress = phase.last?
  noLinks : phase.isEarly = true → summary.links = []
  links : phase.isLate = true →
    summary.links = Artifact.results.map fun a => .ofFile p a (a.fileName stem)

/-- The summary that the job's files make. -/
theorem shows_ofFiles (hj : j.IsProper mode) (hhoused : j.IsHoused here mode t) {phase : Phase}
    (hfiles : j.HasFiles here t phase) (hentries : Store.list j.folder t = .ok entries) :
    Shows j.owner j.stem phase
      (.ofFiles j.owner (j.filesIn entries) phase.state phase.last?) := by
  have hhas : ∀ {a : Artifact}, a ∈ Artifact.results → (j.filesIn entries).has a
      = (t.fileAt? here (a.fileName j.stem)).isSome :=
    fun ha => has_filesIn hj hhoused hentries (mem_artifacts_of_mem_results ha)
  refine ⟨rfl, rfl, fun hearly => ?_, fun hlate => ?_⟩
  · refine List.filterMap_eq_nil_iff.2 fun a ha => ?_
    have hnone := hhas ha
    rw [hfiles.noResults hearly a ha, JobFiles.has, Option.isSome_none,
      Option.isSome_eq_false_iff, Option.isNone_iff_eq_none] at hnone
    rw [hnone, Option.map_none]
  · have hgroup : (j.filesIn entries).IsGroup :=
      JobFiles.isGroup_group (Spool.nodup_jobEntries hhoused.leads hentries) j.stem
    refine JobSummary.links_ofFiles hgroup ?_ _ _
    rw [JobFiles.hasAllResults, List.all_eq_true]
    intro a ha
    rw [hhas ha]
    exact hfiles.results hlate a ha

/-- **The listing shows a live job once,** as its worker's phase has it. -/
theorem shows_of_agrees (hj : j.IsProper mode) {w : World} (h : j.Agrees here mode w) :
    ∃ l summary, Spool.listJobs j.config j.owner w.spool.files = .ok l ∧
      l.jobs.filter (·.stem == j.stem) = [summary] ∧ summary ∈ l.jobsIn summary.state ∧
        Shows j.owner j.stem w.phase summary := by
  obtain ⟨entries, hentries⟩ := h.housed.exists_list hj
  let summary := JobSummary.ofFiles j.owner (j.filesIn entries) w.phase.state w.phase.last?
  have hsummary : Spool.summary? j.owner w.spool.files (j.filesIn entries) = some summary := by
    rw [Spool.summary?_eq_some_iff]
    refine ⟨w.phase.state, state?_filesIn hj h.housed h.files hentries, ?_⟩
    rw [shownProgress_filesIn hj h.housed h.files hentries]
  have hmem : summary ∈ (Spool.listingOf j.config j.owner w.spool.files entries).jobsIn
      w.phase.state := Spool.mem_jobsIn_iff.2 ⟨hsummary, rfl⟩
  refine ⟨_, summary, Spool.listJobs_eq h.housed.leads hentries, ?_, hmem,
    shows_ofFiles hj h.housed h.files hentries⟩
  exact Spool.filter_jobs_eq_singleton (JobListing.mem_jobs_iff.2 ⟨_, hmem⟩)

end Listed

/-! ### How a job begins -/

/-- Does a job begin with a submission?  The configuration was accepted, and the submission gave the
job's stem and ticket.  A generated name is new: no file of the hit list belongs to it, and no other
file has it as its stem. -/
structure Begins (j : LiveJob) (sub : Submission) (s s' : Spool MemoryScheduler) : Prop where
  accepted : j.config.IsAccepted
  sound : s.files.Sound
  tokens : sub.HasPlainTokens
  submitted : ∃ job, sub.run j.config j.owner s = (.ok job, s') ∧ job.id = j.stem ∧
    job.ticket = some j.ticket
  generated : j.stem ∈ sub.generated →
    Store.claimsReserved j.config.hitList.reserved j.stem = false ∧
      ∀ here mode name f, s'.files.Leads j.folder here mode →
        s'.files.shownFile? here name = some f → (FileName.split name).1 = j.stem → name = j.stem

/-- What a job needs of the file system besides. -/
inductive Need where
  /-- The owner's folder is the owner's alone. -/
  | secluded
  /-- It can be listed. -/
  | readable
  /-- Nothing has the name of the progress file yet. -/
  | noProgress
  /-- No link has the name of a result. -/
  | noLink
  /-- The name and the path of the progress file are not too long. -/
  | short
  deriving DecidableEq

/-- Is a need of a job met in the folder at a place? -/
def Need.IsMet (j : LiveJob) (here : Place) (mode : Nat) (t : Tree) : Need → Prop
  | secluded => j.config.store.Secludes j.owner here t
  | readable => (Object.folder mode).mayRead = true
  | noProgress => t.at? (here ++ [.text (Artifact.progress.fileName j.stem)]) = none
  | noLink => ∀ a ∈ Artifact.results, ∀ target,
      t.at? (here ++ [.text (a.fileName j.stem)]) ≠ some (.link target)
  | short => (Artifact.progress.fileName j.stem).utf8ByteSize ≤ Files.nameLimit ∧
      (j.path .progress).text.utf8ByteSize < Files.pathLimit

/-- A name with a word as its stem is not hidden. -/
theorem head?_ne_of_split {name : String} (h : IsWord (FileName.split name).1) :
    name.toList.head? ≠ some '.' :=
  FileName.head?_fst_split name ▸ h.head?_ne

section Beginning

variable {sub : Submission} {s s' : Spool MemoryScheduler}

/-- **The input is all there is with the job's stem** when the job begins. -/
theorem eq_stem_of_begins (h : j.Begins sub s s')
    (hstored : Spool.Stored j.folder t s'.files here mode j.stem)
    (hchosen : sub.MayChoose j.config j.owner t j.stem) {name : String} {f : File}
    (hf : s'.files.fileAt? here name = some f) (hstem : (FileName.split name).1 = j.stem) :
    name = j.stem := by
  have hvisible : name.toList.head? ≠ some '.' := head?_ne_of_split (hstem ▸ hstored.word)
  rcases hchosen with hgenerated | ⟨entries, hentries, hfree, -⟩
  · exact (h.generated hgenerated).2 here mode name f hstored.leads_after
      (Tree.shownFile?_eq_some_iff.2 ⟨hvisible, hf⟩) hstem
  · by_contra hne
    -- Another file would have been there before the input was created.
    have hbefore : t.fileAt? here name = some f := by
      rw [Tree.fileAt?_eq_some_iff, ← hstored.fills.other, ← Tree.fileAt?_eq_some_iff]
      · exact hf
      · simpa using hne
    have hmem := (Store.mem_list_iff hstored.leads hentries).2
      ⟨name, f, Tree.shownFile?_eq_some_iff.2 ⟨hvisible, hbefore⟩, rfl⟩
    exact hfree _ hmem hstem

/-- A submission that succeeds gives a stem that claims nothing, in a folder that can be used. -/
theorem isProper_of_begins (h : j.Begins sub s s')
    (hmet : ∀ need : Need, need.IsMet j here mode s'.files)
    (hstored : Spool.Stored j.folder t s'.files here mode j.stem)
    (hchosen : sub.MayChoose j.config j.owner t j.stem) : j.IsProper mode := by
  refine ⟨hstored.word, ?_, Config.IsAccepted.jobRoot_ne_nil h.accepted, hmet .readable, ?_,
    hstored.accepted⟩
  · rcases hchosen with hgenerated | ⟨entries, -, -, hclaims⟩
    · exact (h.generated hgenerated).1
    · exact hclaims
  · exact ⟨hstored.word.isPlain, hstored.leads.mayChange.symm.trans hstored.change,
      (hmet .short).1, (hmet .short).2⟩

/-- **A submission that succeeds begins a live job:** its phase, files and ticket agree. -/
theorem exists_agrees (h : j.Begins sub s s') (hmet : ∀ here mode,
      s'.files.Leads j.folder here mode → ∀ need : Need, need.IsMet j here mode s'.files) :
    ∃ here mode, j.IsProper mode ∧ j.Agrees here mode ⟨s', .waiting⟩ := by
  obtain ⟨job, hrun, hid, hticket⟩ := h.submitted
  obtain ⟨⟨ticket, hgiven, hheld⟩, t, here, mode, hchosen, hstored⟩ :=
    Submission.run_eq_ok h.sound h.tokens hrun
  rw [hid] at hchosen hstored
  obtain rfl : ticket = j.ticket := Option.some.inj (hgiven.symm.trans hticket)
  have hl : s'.files.Leads j.folder here mode := hstored.leads_after
  have hneeds := hmet here mode hl
  have hj := isProper_of_begins h hneeds hstored hchosen
  obtain ⟨f, hf⟩ := Store.exists_fileAt?_of_fills hstored.fills
  -- Right after the submission the input is the only file of the job.
  have honly : ∀ {a : Artifact}, a ∈ artifacts → a ≠ .input →
      s'.files.fileAt? here (a.fileName j.stem) = none := by
    intro a ha hne
    rw [Option.eq_none_iff_forall_not_mem]
    intro f hf
    have hstem : (FileName.split (a.fileName j.stem)).1 = j.stem := by rw [hj.split_fileName ha]
    exact hne (hj.fileName_injective ha mem_artifacts_input
      (eq_stem_of_begins h hstored hchosen hf hstem))
  have hnoLink : ∀ a ∈ artifacts, ∀ target,
      s'.files.at? (here ++ [.text (a.fileName j.stem)]) ≠ some (.link target) := by
    intro a ha target hlink
    cases a with
    | input => cases (Tree.fileAt?_eq_some_iff.1 hf).symm.trans hlink
    | progress => cases (hneeds .noProgress).symm.trans hlink
    | csv => exact hneeds .noLink .csv (by decide) target hlink
    | log => exact hneeds .noLink .log (by decide) target hlink
    | jobCopy => exact hneeds .noLink .jobCopy (by decide) target hlink
    | _ => simp [artifacts] at ha
  refine ⟨here, mode, hj, ⟨hneeds .secluded, hl, hnoLink, fun name f hf hstem => ?_⟩,
    .of_isEarly rfl (congrArg Option.isSome hf) (hneeds .noProgress) fun a ha => ?_,
    fun _ => hheld⟩
  · exact ⟨.input, mem_artifacts_input, eq_stem_of_begins h hstored hchosen hf hstem⟩
  · exact honly (mem_artifacts_of_mem_results ha) (ne_of_mem_results ha).2

/-! ### A live job -/

/-- Is a job shown as its worker's phase has it, and do calls leave its files alone? -/
structure Undisturbed (j : LiveJob) (w : World) : Prop where
  /-- The listing shows the job once, in the section of its worker's phase. -/
  shown : ∃ l summary, Spool.listJobs j.config j.owner w.spool.files = .ok l ∧
    l.jobs.filter (·.stem == j.stem) = [summary] ∧ summary ∈ l.jobsIn summary.state ∧
      Shows j.owner j.stem w.phase summary
  /-- No call that is allowed creates, changes or removes a file that has the job's stem. -/
  kept : ∀ call, j.Allows w.spool call → ∀ place mode name,
    w.spool.files.Leads j.folder place mode → (FileName.split name).1 = j.stem →
      (call.run j.config w.spool).files.at? (place ++ [.text name])
        = w.spool.files.at? (place ++ [.text name])

/-- **A live job is never disturbed by anything else,** where its needs are met.  Whatever the
worker, the callers and the scheduler's operator have done in whatever order since the submission,
the listing shows the job once, in the section of its worker's phase: queued, then running with the
counts that were told last, then completed with all its links.  And no call that is allowed
creates, changes or removes a file that has the job's stem. -/
theorem live_job_undisturbed (h : j.Begins sub s s') (hmet : ∀ here mode,
      s'.files.Leads j.folder here mode → ∀ need : Need, need.IsMet j here mode s'.files)
    {w : World} (hrun : Relation.ReflTransGen j.Step ⟨s', .waiting⟩ w) : j.Undisturbed w := by
  obtain ⟨here, mode, hj, hbegins⟩ := exists_agrees h hmet
  have hagrees := agrees_of_run hj hbegins hrun
  refine ⟨shows_of_agrees hj hagrees, fun call hallowed place mode' name hl hstem => ?_⟩
  obtain rfl := hl.place_unique hagrees.housed.leads
  exact (spares_call hj hagrees hallowed).same _ ⟨name, rfl, hstem⟩

end Beginning

/-! ### An upload that is followed -/

/-- A job root with a folder for one principal, a file that is to be uploaded, and what else there
is. -/
def rootWith (mode : Nat) (more : List (Place × Object)) : Spool MemoryScheduler where
  files := {
    entries := [
      ([.text "jobs"], .folder Files.folderMode),
      ([.text "jobs", .text "v"], .folder mode),
      ([.text "a.txt"], .file ⟨"x".toByteArray, Files.fileMode, 0⟩)] ++ more
    home := [] }
  scheduler := {}

/-- The place of the principal's folder. -/
def home : Place :=
  [.text "jobs", .text "v"]

/-- The first job of the principal. -/
def firstJob (stem : String) : LiveJob where
  config := .withJobRoot ⟨"/jobs"⟩
  owner := ⟨"v", by decide⟩
  stem := stem
  ticket := ⟨"1"⟩

/-- The upload of the file under a name. -/
def upload (name : String) : Submission :=
  .file 0 ⟨⟨"/a.txt"⟩, name⟩

/-- Someone else. -/
def visitor : Principal :=
  ⟨"g", by decide⟩

/-- **In a job root with nothing but folders, each is its owner's alone.** -/
theorem secludes_of_folders {t : Tree} (hs : t.Sound)
    (hroot : t.Leads ⟨"/jobs"⟩ [.text "jobs"] Files.folderMode)
    (h : (t.entries.all fun e => e.1.length != 2 || e.2.isFolder) = true) (stem : String) :
    (firstJob stem).config.store.Secludes (firstJob stem).owner home t := by
  have hlink : ∀ (p : Principal) target,
      t.at? [.text "jobs", .text p.name] ≠ some (.link target) := by
    intro p target hat
    have hmem := List.all_eq_true.1 h _ ((hs.mem_entries_iff (by simp)).2 hat)
    cases hmem
  refine ⟨fun hroot' => ?root, fun {p _ _} hp hl => ?other, fun {p _ _} _ hroot' _ => ?link⟩
  case root =>
    rw [hroot.place_unique hroot']
    decide
  case other =>
    rw [hroot.place_eq p.isStep (hlink p) hl]
    intro hsame
    have hname : p.name = "v" := by simpa [home] using hsame
    obtain ⟨name, hplain⟩ := p
    subst hname
    exact hp rfl
  case link =>
    rw [hroot.place_unique hroot']
    exact hlink p

/-- A spool after a submission of the principal. -/
def after (sub : Submission) (s : Spool MemoryScheduler) : Spool MemoryScheduler :=
  (sub.run (firstJob "").config (firstJob "").owner s).2

/-- The stem and the ticket that are answered, if a submission succeeds. -/
def answered? (sub : Submission) (s : Spool MemoryScheduler) : Option (String × Option Ticket) :=
  (sub.run (firstJob "").config (firstJob "").owner s).1.toOption.map fun job =>
    (job.id, job.ticket)

/-- **A submission that succeeds begins a job.** -/
theorem begins_of_answered {sub : Submission} {s : Spool MemoryScheduler} (hs : s.files.Sound)
    (htokens : sub.HasPlainTokens) {stem : String}
    (hanswer : answered? sub s = some (stem, some ⟨"1"⟩))
    (hgenerated : stem ∈ sub.generated →
      Store.claimsReserved (firstJob stem).config.hitList.reserved stem = false ∧
        ∀ here mode name f, (after sub s).files.Leads (firstJob stem).folder here mode →
          (after sub s).files.shownFile? here name = some f →
            (FileName.split name).1 = stem → name = stem) :
    (firstJob stem).Begins sub s (after sub s) := by
  refine ⟨Config.isAccepted_minimal, hs, htokens, ?_, hgenerated⟩
  have hrun : sub.run (firstJob stem).config (firstJob stem).owner s
      = sub.run (firstJob "").config (firstJob "").owner s := rfl
  rw [hrun, after]
  rw [answered?] at hanswer
  generalize sub.run (firstJob "").config (firstJob "").owner s = outcome at hanswer ⊢
  obtain ⟨answer, s'⟩ := outcome
  cases answer with
  | error cause => cases hanswer
  | ok job =>
    have hjob := Prod.mk.inj (Option.some.inj hanswer)
    exact ⟨job, rfl, hjob.1, hjob.2⟩

/-- A path leads to one folder. -/
theorem of_leads {t : Tree} {folder : Path} {Met : Place → Nat → Prop}
    (hl : t.Leads folder here mode) (h : Met here mode) (place : Place) (mode' : Nat)
    (hl' : t.Leads folder place mode') : Met place mode' := by
  cases hl'.find.symm.trans hl.find
  exact h

/-- Is a need plainly met? -/
def isPlainlyMet (stem : String) (mode : Nat) (t : Tree) : Need → Bool
  | .secluded => t.entries.all fun e => e.1.length != 2 || e.2.isFolder
  | .readable => (Object.folder mode).mayRead
  | .noProgress => (t.at? (home ++ [.text (Artifact.progress.fileName stem)])).isNone
  | .noLink => Artifact.results.all fun a => (t.at? (home ++ [.text (a.fileName stem)])).isNone
  | .short => decide ((Artifact.progress.fileName stem).utf8ByteSize ≤ Files.nameLimit) &&
      decide (((firstJob stem).path .progress).text.utf8ByteSize < Files.pathLimit)

/-- **What is plainly met is met.** -/
theorem isMet_of_isPlainlyMet {stem : String} (hs : t.Sound)
    (hroot : t.Leads ⟨"/jobs"⟩ [.text "jobs"] Files.folderMode) {need : Need}
    (h : isPlainlyMet stem mode t need = true) : need.IsMet (firstJob stem) home mode t := by
  cases need with
  | secluded => exact secludes_of_folders hs hroot h stem
  | readable => exact h
  | noProgress => exact Option.isNone_iff_eq_none.1 h
  | noLink =>
    intro a ha target hlink
    have hnone := List.all_eq_true.1 h a ha
    rw [firstJob] at hlink
    rw [hlink] at hnone
    cases hnone
  | short =>
    obtain ⟨hname, hpath⟩ := Bool.and_eq_true_iff.1 h
    exact ⟨of_decide_eq_true hname, of_decide_eq_true hpath⟩

/-- The spool after the upload, into a folder in which there is something else. -/
def uploadedTo (more : List (Place × Object)) : Spool MemoryScheduler :=
  after (upload "a.txt") (rootWith Files.folderMode more)

/-- The upload of the example begins a live job, whatever else is in the file system. -/
theorem begins_uploadedTo {more : List (Place × Object)}
    (hs : (rootWith Files.folderMode more).files.Sound)
    (hanswer : answered? (upload "a.txt") (rootWith Files.folderMode more)
      = some ("a", some ⟨"1"⟩)) :
    (firstJob "a").Begins (upload "a.txt") (rootWith Files.folderMode more) (uploadedTo more) :=
  have htokens : (upload "a.txt").HasPlainTokens := trivial
  begins_of_answered hs htokens hanswer nofun

/-- The spool after the upload to the empty folder. -/
def uploaded : Spool MemoryScheduler :=
  uploadedTo []

/-- It does so where there is nothing else. -/
theorem begins_uploaded :
    (firstJob "a").Begins (upload "a.txt") (rootWith Files.folderMode []) uploaded :=
  begins_uploadedTo (by decide) (by decide +kernel)

/-- Then everything that the job needs is met. -/
theorem isMet_uploaded : ∀ here mode, uploaded.files.Leads (firstJob "a").folder here mode →
    ∀ need : Need, need.IsMet (firstJob "a") here mode uploaded.files := by
  have hs : uploaded.files.Sound := by decide +kernel
  have hroot : uploaded.files.Leads ⟨"/jobs"⟩ [.text "jobs"] Files.folderMode :=
    ⟨hs, by decide +kernel⟩
  have hl : uploaded.files.Leads (firstJob "a").folder home Files.folderMode :=
    ⟨hs, by decide +kernel⟩
  refine of_leads hl fun need => isMet_of_isPlainlyMet hs hroot ?_
  cases need <;> decide +kernel

/-! While the worker runs, others call upon the spool, and the scheduler is switched off and on. -/

/-- A sweep for the owner. -/
def sweepAt (now : Instant) : Call :=
  .reconcile (firstJob "a").owner now

/-- A text that someone else submits. -/
def visit : Call :=
  .submit visitor (.text ⟨0, fun _ => "0"⟩ "a.com")

/-- The worker starts. -/
def begun (j : LiveJob) (s : Spool MemoryScheduler) : Spool MemoryScheduler :=
  s.withScheduler (MemoryScheduler.start j.ticket s.scheduler).2

/-- The worker tells its progress. -/
def tellAt (j : LiveJob) (now : Instant) (event : ProgressEvent) (s : Spool MemoryScheduler) :
    Spool MemoryScheduler :=
  s.withFiles (ProgressFile.record (j.path .progress) now s.files event)

/-- The worker writes a result. -/
def writeAt (j : LiveJob) (now : Instant) (s : Spool MemoryScheduler) (a : Artifact) :
    Spool MemoryScheduler :=
  s.withFiles (ProgressFile.orUnchanged s.files (s.files.write (j.path a) "y".toByteArray now))

/-- The folder is swept, and the worker starts.  Then someone else submits something while the
scheduler is off. -/
def started : Spool MemoryScheduler :=
  let busy := (firstJob "a").begun ((sweepAt 0).run (firstJob "a").config uploaded)
  let off := busy.withScheduler (MemoryScheduler.setAvailable false busy.scheduler)
  let visited := visit.run (firstJob "a").config off
  visited.withScheduler (MemoryScheduler.setAvailable true visited.scheduler)

/-- The worker tells its progress. -/
def told : Spool MemoryScheduler :=
  (firstJob "a").tellAt perSecond (.advanced ⟨1, 2⟩) started

/-- The folder is swept again, and all results are written. -/
def written : Spool MemoryScheduler :=
  Artifact.results.foldl ((firstJob "a").writeAt (3 * perSecond))
    ((sweepAt (2 * perSecond)).run (firstJob "a").config told)

/-- The job is completed and cleaned up, and the worker is through. -/
def finished : Spool MemoryScheduler :=
  let completed := (firstJob "a").tellAt (4 * perSecond) .completed written
  let cleaned := completed.withFiles (ProgressFile.orUnchanged completed.files
    (completed.files.remove ((firstJob "a").path .input)))
  cleaned.withScheduler (MemoryScheduler.finish (firstJob "a").ticket cleaned.scheduler).2

/-- The folder is swept once more. -/
def sweptUp : Spool MemoryScheduler :=
  (sweepAt (3600 * perSecond)).run (firstJob "a").config finished

/-- A sweep for the owner is allowed while the progress file is fresh. -/
theorem allows_sweepAt {now : Instant} {s : Spool MemoryScheduler}
    (h : ((s.files.file? ((firstJob "a").path .progress)).all fun f =>
      decide (now - f.modified ≤ ((firstJob "a").config.sweep.staleAfter : Int))) = true) :
    (firstJob "a").Allows s (sweepAt now) := by
  intro _ f hf
  rw [hf] at h
  exact of_decide_eq_true h

/-- While the scheduler is off and on again, and others look at the folder, the worker starts. -/
theorem run_started :
    Relation.ReflTransGen (firstJob "a").Step ⟨uploaded, .waiting⟩ ⟨started, .started⟩ := by
  have hsweep : (firstJob "a").Allows uploaded (sweepAt 0) := allows_sweepAt (by decide +kernel)
  have hvisit : ∀ s, (firstJob "a").Allows s visit := fun s =>
    ⟨fun _ => List.all_eq_true.1 (by decide : "0".toList.all FileName.isKept), by decide⟩
  exact ((((Relation.ReflTransGen.single (Step.call _ hsweep)).tail Step.start).tail
    (Step.setAvailable false)).tail (Step.call _ (hvisit _))).tail (Step.setAvailable true)

/-- **A running worker may write all its results.** -/
theorem run_results (j : LiveJob) (now : Instant) (s : Spool MemoryScheduler) (last : Progress) :
    Relation.ReflTransGen j.Step ⟨s, .running last⟩
      ⟨Artifact.results.foldl (j.writeAt now) s, .running last⟩ := by
  have hresult : ∀ (s : Spool MemoryScheduler) (a : Artifact), a ∈ Artifact.results →
      j.Step ⟨s, .running last⟩ ⟨j.writeAt now s a, .running last⟩ :=
    fun s a ha => .writeResult a ha _ _
  exact ((Relation.ReflTransGen.single (hresult _ .csv (by decide))).tail
    (hresult _ .log (by decide))).tail (hresult _ .jobCopy (by decide))

/-- It tells its progress, and writes its results. -/
theorem run_written : Relation.ReflTransGen (firstJob "a").Step ⟨started, .started⟩
    ⟨written, .running ⟨1, 2⟩⟩ := by
  have hsweep : (firstJob "a").Allows told (sweepAt (2 * perSecond)) :=
    allows_sweepAt (by decide +kernel)
  have htold : (firstJob "a").Step ⟨started, .started⟩ ⟨told, .running ⟨1, 2⟩⟩ :=
    .advance perSecond ⟨1, 2⟩ (Or.inl rfl)
  unfold written
  exact ((Relation.ReflTransGen.single htold).tail (Step.call _ hsweep)).trans
    (run_results _ _ _ _)

/-- It completes, cleans up and ends, and a sweep comes after it. -/
theorem run_sweptUp : Relation.ReflTransGen (firstJob "a").Step ⟨written, .running ⟨1, 2⟩⟩
    ⟨sweptUp, .finished⟩ := by
  have hall : ∀ a ∈ Artifact.results, ∃ f,
      written.files.file? ((firstJob "a").path a) = some f := by
    have hthere : (Artifact.results.all fun a =>
        (written.files.file? ((firstJob "a").path a)).isSome) = true := by decide +kernel
    exact fun a ha => Option.isSome_iff_exists.1 (List.all_eq_true.1 hthere a ha)
  have hsweep : (firstJob "a").Allows finished (sweepAt (3600 * perSecond)) :=
    allows_sweepAt (by decide +kernel)
  have hfinished : Relation.ReflTransGen (firstJob "a").Step ⟨written, .running ⟨1, 2⟩⟩
      ⟨finished, .finished⟩ :=
    ((Relation.ReflTransGen.single (Step.complete (4 * perSecond) hall)).tail
      Step.removeInput).tail Step.finish
  exact hfinished.tail (Step.call _ hsweep)

/-- The job of an upload lives to its end, with others at work in the folder all the while. -/
theorem live_job_undisturbed_uploaded :
    (firstJob "a").Begins (upload "a.txt") (rootWith Files.folderMode []) uploaded ∧
    (∀ here mode, uploaded.files.Leads (firstJob "a").folder here mode →
      ∀ need : Need, need.IsMet (firstJob "a") here mode uploaded.files) ∧
    Relation.ReflTransGen (firstJob "a").Step ⟨uploaded, .waiting⟩ ⟨written, .running ⟨1, 2⟩⟩ ∧
    (firstJob "a").Undisturbed ⟨written, .running ⟨1, 2⟩⟩ ∧
    Relation.ReflTransGen (firstJob "a").Step ⟨uploaded, .waiting⟩ ⟨sweptUp, .finished⟩ ∧
    (firstJob "a").Undisturbed ⟨sweptUp, .finished⟩ :=
  have hwritten := run_started.trans run_written
  have hsweptUp := hwritten.trans run_sweptUp
  ⟨begins_uploaded, isMet_uploaded, hwritten,
    live_job_undisturbed begins_uploaded isMet_uploaded hwritten, hsweptUp,
    live_job_undisturbed begins_uploaded isMet_uploaded hsweptUp⟩

end LiveJob
end JobSpool
