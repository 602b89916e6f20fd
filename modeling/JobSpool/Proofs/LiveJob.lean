/-
# A live job, and what others do meanwhile

A job lives from the submission that made it until its worker is through, and meanwhile
anyone may call upon the spool.  `LiveJob.Agrees` is the invariant: it ties the phase of the
worker to the files of the job and to the ticket that the scheduler holds.

No call that is allowed (`LiveJob.Allows`) creates, changes or removes a file with the job's
stem (`spares_call`).  A submission cannot, because its name is a word that no file has as its
stem.  A deletion cannot, because it names another stem, or belongs to the hit list.  A sweep
keeps the input, because the ticket is held or the scheduler cannot be asked; it keeps the
progress file, because that is fresh; and results it keeps always.

All this needs that the owner's folder is the owner's alone (`Store.Secludes`), which no call
changes, since no call makes a link.
-/

import JobSpool.Config.Load
import JobSpool.Proofs.Calls
import JobSpool.Proofs.ProgressRuns

namespace JobSpool

open Files (Tree Place File Object)

/-! ### A folder of one's own -/

namespace Store

/-- Is a folder one principal's alone?  It is not the job root.  It is no other principal's folder,
and comes to be none: where another principal has no folder, no link stands in its stead. -/
structure Secludes (s : Store) (q : Principal) (here : Place) (t : Tree) : Prop where
  root : ∀ {root mode}, t.Leads s.root root mode → here ≠ root
  other : ∀ {p : Principal} {place mode}, p ≠ q → t.Leads (s.folder p) place mode → place ≠ here
  link : ∀ {p : Principal} {root mode}, p ≠ q → t.Leads s.root root mode →
    t.isFolder (s.folder p) = false → ∀ target, t.at? (root ++ [.text p.name]) ≠ some (.link target)

/-- **A folder stays one's own** as long as folders are kept and no link is new. -/
theorem Secludes.of_spares {s : Store} {q : Principal} {here : Place} {mode : Nat} {t t' : Tree}
    (h : s.Secludes q here t) (hf : s.root.text.toList ≠ []) (hl : t.Leads (s.folder q) here mode)
    {guarded : Place → Prop} (hspares : Tree.Spares guarded t t') : s.Secludes q here t' := by
  obtain ⟨root, rootMode, hroot⟩ := Tree.exists_leads_of_locate hl.sound hf q.isStep
    (Tree.locate_of_find hl.find)
  have hroot' := hroot.of_keeps hspares.sound hspares.keeps
  refine ⟨fun hroot₁ => ?root, fun {p _ _} hp hl' => ?other,
    fun {p _ _} hp hroot₁ hnot target => ?link⟩
  case root => exact hroot'.place_unique hroot₁ ▸ h.root hroot
  case other =>
    cases hfolder : t.isFolder (s.folder p) with
    | true => exact h.other hp (hl'.before_of_keeps hl.sound hspares.keeps hfolder)
    | false =>
      have hlink := h.link hp hroot hfolder
      obtain rfl := hroot'.place_eq p.isStep
        (fun target hat => hlink target (hspares.links _ target hat)) hl'
      -- A folder that stands under the other name now, and is this one, stood there before.
      rintro rfl
      have hsame := (hspares.keeps.folder hl.at?).trans hl.at?.symm
      have hfind := Tree.find_join_congr hroot hroot' p.isStep hsame hlink
      rw [folder, Tree.isFolder, ← hfind, ← folder, ← Tree.isFolder, hl'.isFolder] at hfolder
      cases hfolder
  case link =>
    rw [hroot'.place_unique hroot₁]
    intro hat
    refine h.link hp hroot ?_ target (hspares.links _ target hat)
    rw [Bool.eq_false_iff] at hnot ⊢
    intro hfolder
    obtain ⟨place, mode, hlp⟩ := Tree.exists_leads_of_isFolder hl.sound hfolder
    exact hnot (hlp.of_keeps hspares.sound hspares.keeps).isFolder

end Store

/-- A job that is followed: whose it is, the stem of its files, and its ticket. -/
structure LiveJob where
  config : Config
  owner : Principal
  stem : String
  ticket : Ticket

/-- How far a worker has come. -/
inductive Phase where
  | waiting
  | started
  /-- Progress was told at least once, and these counts are the last ones. -/
  | running (last : Progress)
  | completed
  /-- The input is removed. -/
  | cleaned
  | finished
  deriving DecidableEq, Repr

namespace Phase

/-- Is the input still there? -/
def hasInput : Phase → Bool
  | waiting | started | running _ | completed => true
  | cleaned | finished => false

/-- The counts that the progress file holds, if there is one. -/
def last? : Phase → Option Progress
  | running last => some last
  | waiting | started | completed | cleaned | finished => none

/-- The state in which the job is listed. -/
def state : Phase → JobState
  | waiting | started => .queued
  | running _ => .running
  | completed | cleaned | finished => .completed

/-- Has no result been written yet? -/
def isEarly : Phase → Bool
  | waiting | started => true
  | running _ | completed | cleaned | finished => false

/-- Have all results been written? -/
def isLate : Phase → Bool
  | completed | cleaned | finished => true
  | waiting | started | running _ => false

/-- A worker whose input is still there is not through. -/
theorem ne_finished_of_hasInput {phase : Phase} (h : phase.hasInput = true) :
    phase ≠ .finished := by
  rintro rfl
  cases h

end Phase

namespace LiveJob

variable (j : LiveJob)

/-- The folder of the job's owner. -/
def folder : Path :=
  j.config.store.folder j.owner

/-- The path of one of the job's files. -/
def path (a : Artifact) : Path :=
  j.folder.join (a.fileName j.stem)

/-- The files that a job has while it lives. -/
def artifacts : List Artifact :=
  [.input, .progress, .csv, .log, .jobCopy]

/-- Does a place in the owner's folder have a name with the job's stem? -/
def Owns (here place : Place) : Prop :=
  ∃ name, place = here ++ [.text name] ∧ (FileName.split name).1 = j.stem

/-- What never changes for a job: its stem is a word that claims no file of the hit list, its files
can be listed, and its progress can be told. -/
structure IsProper (mode : Nat) : Prop where
  word : IsWord j.stem
  unreserved : Store.claimsReserved j.config.hitList.reserved j.stem = false
  jobRoot : j.config.store.root.text.toList ≠ []
  readable : (Object.folder mode).mayRead = true
  told : ProgressFile.Writable j.folder mode j.stem
  accepted : Tree.refusal? (j.path .input) = none

/-- Does the owner's folder stand at a place, as the owner's alone, with no link under the names of
the job's files, and no other file with the job's stem? -/
structure IsHoused (here : Place) (mode : Nat) (t : Tree) : Prop where
  secluded : j.config.store.Secludes j.owner here t
  leads : t.Leads j.folder here mode
  noLink : ∀ a ∈ artifacts, ∀ target,
    t.at? (here ++ [.text (a.fileName j.stem)]) ≠ some (.link target)
  files : ∀ name f, t.fileAt? here name = some f →
    (FileName.split name).1 = j.stem → ∃ a ∈ artifacts, name = a.fileName j.stem

/-- Does a tree hold the files of a job in a phase? -/
structure HasFiles (here : Place) (t : Tree) (phase : Phase) : Prop where
  input : (t.fileAt? here (Artifact.input.fileName j.stem)).isSome = phase.hasInput
  noProgress : phase.last? = none →
    t.at? (here ++ [.text (Artifact.progress.fileName j.stem)]) = none
  progress : ∀ last, phase.last? = some last →
    ∃ f, t.fileAt? here (Artifact.progress.fileName j.stem) = some f ∧
      f.content = last.line.toByteArray ∧ f.mode = Files.fileMode
  noResults : phase.isEarly = true → ∀ a ∈ Artifact.results,
    t.fileAt? here (a.fileName j.stem) = none
  results : phase.isLate = true → ∀ a ∈ Artifact.results,
    (t.fileAt? here (a.fileName j.stem)).isSome = true

/-- A spool, and how far the worker has come. -/
structure World where
  spool : Spool MemoryScheduler
  phase : Phase

/-- Does a world hold what belongs to the phase of a job? -/
structure Agrees (here : Place) (mode : Nat) (w : World) : Prop where
  housed : j.IsHoused here mode w.spool.files
  files : j.HasFiles here w.spool.files w.phase
  held : w.phase ≠ .finished → w.spool.scheduler.Holds j.ticket

/-- May a call be made while the job lives?  No name that is generated for the owner is the stem,
which is in use; a deletion for the owner does not name the job; the job's ticket is not dropped;
and a sweep for the owner finds the progress file fresh, if it is there. -/
def Allows (s : Spool MemoryScheduler) : Call → Prop
  | .submit p sub => sub.HasPlainTokens ∧ (p = j.owner → j.stem ∉ sub.generated)
  | .deleteJob p stem => p = j.owner → stem ≠ j.stem
  | .deleteJobs p stems => p = j.owner → j.stem ∉ stems
  | .cancelPending tickets => j.ticket ∉ tickets
  | .reconcile p now => p = j.owner → ∀ f, s.files.file? (j.path .progress) = some f →
      now - f.modified ≤ (j.config.sweep.staleAfter : Int)
  | .listJobs _ | .progressOf _ _ | .pendingQueue _ => True

variable {j : LiveJob} {here : Place} {mode : Nat} {t t' : Tree}

/-! ### The names of the job's files -/

/-- The input is a file of a live job, -/
theorem mem_artifacts_input : Artifact.input ∈ artifacts := by decide

/-- so is its progress file, -/
theorem mem_artifacts_progress : Artifact.progress ∈ artifacts := by decide

/-- and so are its results. -/
theorem mem_artifacts_of_mem_results {a : Artifact} (ha : a ∈ Artifact.results) :
    a ∈ artifacts := by
  revert ha
  cases a <;> simp [artifacts, Artifact.results]

/-- **Every file of a job has a kind that is known.** -/
theorem ne_unrecognized {a : Artifact} (ha : a ∈ artifacts) : a ≠ .unrecognized := by
  rintro rfl
  simp [artifacts] at ha

/-- **Only in the owner's folder, and only under the stem,** does a job own anything. -/
theorem owns_iff {place : Place} {name : String} :
    j.Owns here (place ++ [.text name]) ↔ place = here ∧ (FileName.split name).1 = j.stem := by
  constructor
  · rintro ⟨name', heq, hstem⟩
    obtain ⟨rfl, hname⟩ := List.append_inj' heq rfl
    obtain rfl : name = name' := by simpa using hname
    exact ⟨rfl, hstem⟩
  · rintro ⟨rfl, hstem⟩
    exact ⟨name, rfl, hstem⟩

namespace IsProper

/-- The folder of a live job may be searched. -/
theorem searchable (hj : j.IsProper mode) : (Object.folder mode).maySearch = true :=
  hj.told.maySearch

/-- The name of a file of a live job is cut into its stem and its extension. -/
theorem split_fileName (hj : j.IsProper mode) {a : Artifact} (ha : a ∈ artifacts) :
    FileName.split (a.fileName j.stem) = (j.stem, a.extension) :=
  hj.word.split_fileName (ne_unrecognized ha)

/-- **The job's files are not of the hit list.** -/
theorem owns_eq_false (hj : j.IsProper mode) {a : Artifact} (ha : a ∈ artifacts) :
    j.config.hitList.owns (a.fileName j.stem) = false :=
  HitListConfig.owns_eq_false hj.unreserved (Artifact.mem_owned_iff.2 (ne_unrecognized ha))

/-- No file of a live job is hidden. -/
theorem shownFile?_eq (hj : j.IsProper mode) (a : Artifact) (place : Place) :
    t.shownFile? place (a.fileName j.stem) = t.fileAt? place (a.fileName j.stem) := by
  rw [Tree.shownFile?, if_neg (hj.word.head?_fileName_ne a)]

/-- **Each of the job's files is a job file,** as the sweep and the listing see it. -/
theorem jobFile?_eq (hj : j.IsProper mode) {a : Artifact} (ha : a ∈ artifacts) (place : Place) :
    Spool.jobFile? j.config t place j.stem a = t.fileAt? place (a.fileName j.stem) := by
  rw [Spool.jobFile?, hj.owns_eq_false ha, hj.shownFile?_eq]
  rfl

end IsProper

/-! ### The files of a phase -/

namespace HasFiles

variable {phase : Phase}

/-- **Early on** a job has its input and nothing else. -/
theorem of_isEarly (hearly : phase.isEarly = true)
    (hinput : (t.fileAt? here (Artifact.input.fileName j.stem)).isSome = true)
    (hnoProgress : t.at? (here ++ [.text (Artifact.progress.fileName j.stem)]) = none)
    (hnoResults : ∀ a ∈ Artifact.results, t.fileAt? here (a.fileName j.stem) = none) :
    j.HasFiles here t phase := by
  cases phase with
  | waiting | started =>
    refine ⟨hinput, fun _ => hnoProgress, fun last hlast => ?_, fun _ => hnoResults,
      fun hlate => ?_⟩
    · cases hlast
    · cases hlate
  | _ => cases hearly

/-- **While it runs** it has its input and its progress file, whatever results there are. -/
theorem running {last : Progress}
    (hinput : (t.fileAt? here (Artifact.input.fileName j.stem)).isSome = true)
    (hprogress : ∃ f, t.fileAt? here (Artifact.progress.fileName j.stem) = some f ∧
      f.content = last.line.toByteArray ∧ f.mode = Files.fileMode) :
    j.HasFiles here t (.running last) := by
  refine ⟨hinput, fun hnone => ?_, fun last' hlast => ?_, fun hearly => ?_, fun hlate => ?_⟩
  · cases hnone
  · cases hlast
    exact hprogress
  · cases hearly
  · cases hlate

/-- **Late** it has its results, and its input until that is removed. -/
theorem of_isLate (hlate : phase.isLate = true)
    (hinput : (t.fileAt? here (Artifact.input.fileName j.stem)).isSome = phase.hasInput)
    (hnoProgress : t.at? (here ++ [.text (Artifact.progress.fileName j.stem)]) = none)
    (hresults : ∀ a ∈ Artifact.results, (t.fileAt? here (a.fileName j.stem)).isSome = true) :
    j.HasFiles here t phase := by
  cases phase with
  | completed | cleaned | finished =>
    refine ⟨hinput, fun _ => hnoProgress, fun last hlast => ?_, fun hearly => ?_,
      fun _ => hresults⟩
    · cases hlast
    · cases hearly
  | _ => cases hlate

end HasFiles

/-! ### What stays when the job's files stay -/

namespace IsHoused

/-- The folder's listing succeeds. -/
theorem exists_list (hj : j.IsProper mode) (h : j.IsHoused here mode t) :
    ∃ entries, Store.list j.folder t = .ok entries :=
  Store.exists_list_eq_ok h.leads hj.readable

/-- The job is at home still when nothing but other files were touched. -/
theorem of_spares (hj : j.IsProper mode) (h : j.IsHoused here mode t)
    (hspares : Tree.Spares (j.Owns here) t t') : j.IsHoused here mode t' where
  secluded := h.secluded.of_spares hj.jobRoot h.leads hspares
  leads := h.leads.of_keeps hspares.sound hspares.keeps
  noLink a ha target hlink := h.noLink a ha target (hspares.links _ target hlink)
  files name f hf hstem := by
    rw [Tree.fileAt?, hspares.same _ ⟨name, rfl, hstem⟩] at hf
    exact h.files name f hf hstem

end IsHoused

/-- What stands under a name of the job is not touched by what spares the job. -/
theorem at?_of_spares (hj : j.IsProper mode) (hspares : Tree.Spares (j.Owns here) t t')
    {a : Artifact} (ha : a ∈ artifacts) : t'.at? (here ++ [.text (a.fileName j.stem)])
      = t.at? (here ++ [.text (a.fileName j.stem)]) :=
  hspares.same _ ⟨_, rfl, by rw [hj.split_fileName ha]⟩

/-- The job has the files of its phase still when nothing but other files were touched. -/
theorem HasFiles.of_spares (hj : j.IsProper mode) {phase : Phase} (h : j.HasFiles here t phase)
    (hspares : Tree.Spares (j.Owns here) t t') : j.HasFiles here t' phase := by
  have hsame : ∀ {a : Artifact}, a ∈ artifacts → t'.fileAt? here (a.fileName j.stem)
      = t.fileAt? here (a.fileName j.stem) := fun ha => by
    rw [Tree.fileAt?, at?_of_spares hj hspares ha, Tree.fileAt?]
  refine ⟨?_, fun hnone => ?_, fun last hlast => ?_, fun hearly a ha => ?_, fun hlate a ha => ?_⟩
  · rw [hsame mem_artifacts_input]
    exact h.input
  · rw [at?_of_spares hj hspares mem_artifacts_progress]
    exact h.noProgress hnone
  · rw [hsame mem_artifacts_progress]
    exact h.progress last hlast
  · rw [hsame (mem_artifacts_of_mem_results ha)]
    exact h.noResults hearly a ha
  · rw [hsame (mem_artifacts_of_mem_results ha)]
    exact h.results hlate a ha

/-- **A live job has a file,** in every phase. -/
theorem HasFiles.exists_file {phase : Phase} (h : j.HasFiles here t phase) :
    ∃ a ∈ artifacts, ∃ f, t.fileAt? here (a.fileName j.stem) = some f := by
  cases hphase : phase.hasInput with
  | true =>
    have hinput := h.input
    rw [hphase, Option.isSome_iff_exists] at hinput
    exact ⟨.input, mem_artifacts_input, hinput⟩
  | false =>
    have hlate : phase.isLate = true := by
      cases phase <;> first | rfl | cases hphase
    have hcsv := h.results hlate .csv (by decide)
    rw [Option.isSome_iff_exists] at hcsv
    exact ⟨.csv, by decide, hcsv⟩

/-! ### Calls -/

/-- The listing of the owner's folder has an entry with the job's stem. -/
theorem exists_entry (hj : j.IsProper mode) (hhoused : j.IsHoused here mode t) {phase : Phase}
    (hfiles : j.HasFiles here t phase) {entries : List Entry}
    (hentries : Store.list j.folder t = .ok entries) : ∃ e ∈ entries, e.stem = j.stem := by
  obtain ⟨a, ha, f, hf⟩ := hfiles.exists_file
  rw [← hj.shownFile?_eq] at hf
  refine ⟨_, (Store.mem_list_iff hhoused.leads hentries).2 ⟨_, f, hf, rfl⟩, ?_⟩
  rw [Entry.ofName, hj.split_fileName ha]

/-- A file that stands in a principal's folder, and that the job owns, is one of the job's. -/
theorem exists_artifact (hhoused : j.IsHoused here mode t) {p : Principal} {place : Place}
    {folderMode : Nat} (hl : t.Leads (j.config.store.folder p) place folderMode) {name : String}
    (hfile : ∃ f, t.fileAt? place name = some f) (howns : j.Owns here (place ++ [.text name])) :
    p = j.owner ∧ place = here ∧ ∃ a ∈ artifacts, name = a.fileName j.stem := by
  obtain ⟨rfl, hstem⟩ := owns_iff.1 howns
  obtain ⟨f, hf⟩ := hfile
  have hp : p = j.owner := by
    by_contra hne
    exact hhoused.secluded.other hne hl rfl
  exact ⟨hp, rfl, hhoused.files name f hf hstem⟩

section Calls

variable {s : Spool MemoryScheduler} {phase : Phase}

/-- Making sure of any principal's folder makes nothing that the job owns. -/
theorem spares_ensureFolder (hj : j.IsProper mode) (hhoused : j.IsHoused here mode t)
    (p : Principal) (medium : Files.Medium) :
    Tree.Spares (j.Owns here) t (j.config.store.ensureFolder p t medium).2 := by
  obtain ⟨root, rootMode, hroot⟩ := Tree.exists_leads_of_locate hhoused.leads.sound hj.jobRoot
    j.owner.isStep (Tree.locate_of_find hhoused.leads.find)
  refine (j.config.store.grows_ensureFolder p hroot medium).spares fun place hplace howns => ?_
  rw [hplace, owns_iff] at howns
  exact hhoused.secluded.root hroot howns.1.symm

/-- A submission of anyone spares the files of a live job. -/
theorem spares_submit (hj : j.IsProper mode) (hhoused : j.IsHoused here mode s.files)
    (hfiles : j.HasFiles here s.files phase) {p : Principal} {sub : Submission}
    (hallowed : j.Allows s (.submit p sub)) :
    Tree.Spares (j.Owns here) s.files (sub.run j.config p s).2.files := by
  obtain ⟨htokens, hnew⟩ := hallowed
  refine Submission.spares_run hhoused.leads.sound htokens
    (spares_ensureFolder hj hhoused p sub.medium)
    fun t place mode' name hspares hl hword hchosen howns => ?_
  have hhoused' := hhoused.of_spares hj hspares
  obtain ⟨rfl, hstem⟩ := owns_iff.1 howns
  have hp : p = j.owner := by
    by_contra hne
    exact hhoused'.secluded.other hne hl rfl
  subst hp
  rw [hword.split_eq] at hstem
  obtain rfl : name = j.stem := hstem
  rcases hchosen with hgenerated | ⟨entries, hentries, hfree, -⟩
  · exact hnew rfl hgenerated
  · obtain ⟨e, he, hstem⟩ := exists_entry hj hhoused' (hfiles.of_spares hj hspares) hentries
    exact hfree e he hstem

/-- No deletion of another stem, or of the hit list, means one of the job's files. -/
theorem not_owns_of_isDeletedWith (hj : j.IsProper mode) (hhoused : j.IsHoused here mode t)
    {p : Principal} {stem : String} (hother : p = j.owner → stem ≠ j.stem) {place : Place}
    {folderMode : Nat} (hl : t.Leads (j.config.store.folder p) place folderMode) {name : String}
    (hfile : ∃ f, t.fileAt? place name = some f)
    (hdeleted : Spool.IsDeletedWith j.config stem name) :
    ¬ j.Owns here (place ++ [.text name]) := by
  intro howns
  obtain ⟨hp, -, a, ha, rfl⟩ := exists_artifact hhoused hl hfile howns
  rw [Spool.IsDeletedWith] at hdeleted
  split at hdeleted
  · rw [hj.owns_eq_false ha] at hdeleted
    cases hdeleted
  · rw [hj.split_fileName ha] at hdeleted
    exact hother hp hdeleted.1.symm

/-- A sweep spares the files of a live job, since its ticket is held or its progress is fresh. -/
theorem spares_reconcile (hj : j.IsProper mode) (hhoused : j.IsHoused here mode s.files)
    (hfiles : j.HasFiles here s.files phase)
    (hheld : phase ≠ .finished → s.scheduler.Holds j.ticket) {p : Principal} {now : Instant}
    (hallowed : j.Allows s (.reconcile p now)) :
    Tree.Spares (j.Owns here) s.files (s.reconcile j.config now p).2.files := by
  -- Suppose a file of the job were swept, and look at which one it is.
  refine Spool.spares_reconcile hhoused.leads.sound fun place folderMode name hl hswept howns => ?_
  obtain ⟨⟨f, hf⟩, -, hlive, hgoes⟩ := hswept
  have hfile := (Tree.shownFile?_eq_some_iff.1 hf).2
  obtain ⟨rfl, rfl, a, ha, rfl⟩ := exists_artifact hhoused hl ⟨f, hfile⟩ howns
  rw [hj.split_fileName ha] at hlive hgoes
  rw [Artifact.ofExtension_extension (ne_unrecognized ha)] at hgoes
  cases a with
  | input =>
    -- The ticket is held as long as the input is there.
    refine MemoryScheduler.not_holdsNothing now (hheld ?_) hgoes
    rintro rfl
    have hinput := hfiles.input
    rw [hfile] at hinput
    cases hinput
  | progress =>
    -- The progress file is fresh, so the stem is live.
    cases hlast : phase.last? with
    | none =>
      have hat := Tree.fileAt?_eq_some_iff.1 hfile
      rw [hfiles.noProgress hlast] at hat
      cases hat
    | some last =>
      have hr := hj.told.refusal?_eq_none hhoused.leads
      have hpath : s.files.file? (j.path .progress) = some f := by
        rw [Tree.file?, path, Tree.find_join_of_maySearch hhoused.leads hfile hr hj.searchable]
      refine hlive ⟨f, f.modified, ?_, ?_, hallowed rfl f hpath⟩
      · rw [hj.jobFile?_eq ha]
        exact hfile
      · have hr' : Tree.refusal? ((j.config.store.folder j.owner).join
            (Artifact.progress.fileName j.stem)) = none := hr
        have hsearch : s.files.isSearchable (j.config.store.folder j.owner) = true :=
          hhoused.leads.isSearchable.trans hj.searchable
        rw [Tree.knownTime?, hsearch, hr']
        rfl
  | unrecognized => exact ne_unrecognized ha rfl
  | _ => exact hgoes

/-- **No call that is allowed creates, changes or removes a file of a live job.** -/
theorem spares_call (hj : j.IsProper mode) {w : World} (h : j.Agrees here mode w) {call : Call}
    (hallowed : j.Allows w.spool call) :
    Tree.Spares (j.Owns here) w.spool.files (call.run j.config w.spool).files := by
  have hsound : w.spool.files.Sound := h.housed.leads.sound
  have hsame := Tree.Spares.refl (j.Owns here) hsound
  cases call with
  | submit p sub => exact spares_submit hj h.housed h.files hallowed
  | listJobs p => exact hsame
  | progressOf p stem => exact hsame
  | deleteJob p stem =>
    refine Spool.spares_deleteJob hsound fun place folderMode name hl hfile hdeleted => ?_
    exact not_owns_of_isDeletedWith hj h.housed hallowed hl hfile hdeleted
  | deleteJobs p stems =>
    refine Spool.spares_deleteJobs hsound
      fun t hspares stem hstem place folderMode name hl hfile hdeleted => ?_
    refine not_owns_of_isDeletedWith hj (h.housed.of_spares hj hspares) (fun hp => ?_) hl hfile
      hdeleted
    rintro rfl
    exact hallowed hp hstem
  | cancelPending tickets =>
    rw [Call.run, Spool.cancelPending]
    split
    · exact hsame
    · exact hsame
  | pendingQueue now => exact hsame
  | reconcile p now => exact spares_reconcile hj h.housed h.files h.held hallowed

/-- **No call that is allowed takes the job's ticket.** -/
theorem holds_call {call : Call} (hallowed : j.Allows s call) (h : s.scheduler.Holds j.ticket) :
    (call.run j.config s).scheduler.Holds j.ticket := by
  have hpending : ∀ now, (Scheduler.pending s.files now s.scheduler).2.Holds j.ticket := by
    intro now
    have hsame : (Scheduler.pending s.files now s.scheduler).2 = s.scheduler :=
      MemoryScheduler.pending_snd now s.scheduler
    rwa [hsame]
  cases call with
  | submit p sub => exact Submission.holds_run hallowed.1 h
  | listJobs p => exact h
  | progressOf p stem => exact h
  | deleteJob p stem => exact h
  | deleteJobs p stems => exact h
  | cancelPending tickets =>
    rw [Call.run, Spool.cancelPending]
    split
    · exact h
    · exact MemoryScheduler.holds_cancel hallowed h
  | pendingQueue now => exact hpending now
  | reconcile p now =>
    rw [Call.run]
    rcases Spool.scheduler_reconcile j.config now p s with hs | hs
    · rw [hs]
      exact h
    · rw [hs]
      exact hpending now

/-- **No call disturbs a live job,** whoever makes it. -/
theorem agrees_call (hj : j.IsProper mode) {w : World} (h : j.Agrees here mode w) {call : Call}
    (hallowed : j.Allows w.spool call) :
    j.Agrees here mode ⟨call.run j.config w.spool, w.phase⟩ := by
  have hspares := spares_call hj h hallowed
  exact ⟨h.housed.of_spares hj hspares, h.files.of_spares hj hspares,
    fun hphase => holds_call hallowed (h.held hphase)⟩

end Calls

end LiveJob
end JobSpool
