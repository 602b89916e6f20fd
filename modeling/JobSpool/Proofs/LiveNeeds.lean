/-
# What a live job needs

The control flow of `SPEC_FULL.md`, 2, and the contract of a worker in 4.4.

`LiveJob.live_job_undisturbed` asks that the needs of a job are met right after its submission.  No
call sees to it: links are followed wherever they stand, a listing shows nothing but files, and what
a worker could not write of its progress is lost.

So none of the needs can be spared (`live_job_not_always_undisturbed`).  For each of them
there is a job whose other needs are all met, and a run after which it is shown in another state
than its worker's phase has, or not at all, or after which someone else's call removes its input.
-/

import JobSpool.Proofs.AcceptedUploads
import JobSpool.Proofs.LiveRuns

namespace JobSpool

open Files (Tree Place File Object)

namespace LiveJob

variable {j : LiveJob} {mode : Nat}

/-- Is every live job undisturbed, even if one of its needs is not met? -/
def UndisturbedWithout (need : Need) : Prop :=
  ∀ (j : LiveJob) (sub : Submission) (s s' : Spool MemoryScheduler) (w : World),
    j.Begins sub s s' →
      (∀ here mode, s'.files.Leads j.folder here mode →
        ∀ other, other ≠ need → other.IsMet j here mode s'.files) →
          Relation.ReflTransGen j.Step ⟨s', .waiting⟩ w → j.Undisturbed w

/-- The states in which the job is listed, if the listing succeeds. -/
def shownStates? (j : LiveJob) (s : Spool MemoryScheduler) : Option (List JobState) :=
  (Spool.listJobs j.config j.owner s.files).toOption.map fun l =>
    (l.jobs.filter (·.stem == j.stem)).map (·.state)

/-- **An undisturbed job is listed once,** in the state of its worker's phase. -/
theorem Undisturbed.shownStates?_eq {w : World} (h : j.Undisturbed w) :
    j.shownStates? w.spool = some [w.phase.state] := by
  obtain ⟨l, summary, hlist, hjobs, -, hshows⟩ := h.shown
  rw [shownStates?, hlist, Except.toOption, Option.map_some, hjobs, List.map_singleton,
    hshows.state]

/-- **A job that is shown as running has its progress file.** -/
theorem Undisturbed.exists_progressFile {s : Spool MemoryScheduler} {last : Progress}
    (h : j.Undisturbed ⟨s, .running last⟩) {here : Place} (hl : s.files.Leads j.folder here mode)
    (hstem : j.stem ≠ "") :
    ∃ f, s.files.fileAt? here (Artifact.progress.fileName j.stem) = some f := by
  obtain ⟨l, summary, hlist, hjobs, hmem, hshows⟩ := h.shown
  obtain ⟨entries, hentries, rfl⟩ := Spool.exists_entries_of_listJobs hl hlist
  have hsummary : summary.stem = j.stem := by
    have hfiltered : summary ∈ [summary] := List.mem_singleton_self _
    rw [← hjobs, List.mem_filter] at hfiltered
    exact beq_iff_eq.1 hfiltered.2
  rw [hshows.state] at hmem
  have htold := (Spool.exists_running_iff hl hentries hstem last).1
    ⟨summary, hmem, hsummary, hshows.progress⟩
  obtain ⟨f, hf, -⟩ := Option.bind_eq_some_iff.1 htold
  rw [Spool.jobFile?] at hf
  split at hf
  · cases hf
  · exact ⟨f, (Tree.shownFile?_eq_some_iff.1 hf).2⟩

/-! ### Submissions to folders that lack something -/

/-- Are the needs of a job of the principal plainly met, but for one? -/
structure LacksOnly (need : Need) (stem : String) (mode : Nat) (t : Tree) : Prop where
  sound : t.Sound
  root : t.find ⟨"/jobs"⟩ = .ok ([.text "jobs"], .folder Files.folderMode)
  home : t.find ⟨"/jobs/v"⟩ = .ok (home, .folder mode)
  met : ∀ other, other ≠ need → isPlainlyMet stem mode t other = true

/-- A job for which all needs but one are met, and the other one can be spared, runs
undisturbed. -/
theorem UndisturbedWithout.undisturbed {need : Need} (h : UndisturbedWithout need) {stem : String}
    {mode : Nat} {sub : Submission} {s s' : Spool MemoryScheduler}
    (hbegins : (firstJob stem).Begins sub s s') (hlacks : LacksOnly need stem mode s'.files)
    {w : World} (hrun : Relation.ReflTransGen (firstJob stem).Step ⟨s', .waiting⟩ w) :
    (firstJob stem).Undisturbed w := by
  have hfolder : (firstJob stem).folder = ⟨"/jobs/v"⟩ :=
    (by decide +kernel : (firstJob "a").folder = ⟨"/jobs/v"⟩)
  have hl : s'.files.Leads (firstJob stem).folder LiveJob.home mode :=
    ⟨hlacks.sound, hfolder ▸ hlacks.home⟩
  refine h _ _ _ _ _ hbegins (of_leads hl fun other hne => ?_) hrun
  exact isMet_of_isPlainlyMet hlacks.sound ⟨hlacks.sound, hlacks.root⟩ (hlacks.met other hne)

/-- The worker starts, and tells its progress. -/
def toldFirst (j : LiveJob) (s : Spool MemoryScheduler) : Spool MemoryScheduler :=
  j.tellAt perSecond (.advanced ⟨1, 2⟩) (j.begun s)

/-- A worker can start and tell its progress, whatever becomes of the telling. -/
theorem run_toldFirst (j : LiveJob) (s : Spool MemoryScheduler) :
    Relation.ReflTransGen j.Step ⟨s, .waiting⟩ ⟨j.toldFirst s, .running ⟨1, 2⟩⟩ :=
  (Relation.ReflTransGen.single Step.start).tail (Step.advance perSecond ⟨1, 2⟩ (Or.inl rfl))

/-- Then all results are written. -/
def writtenAll (j : LiveJob) (s : Spool MemoryScheduler) : Spool MemoryScheduler :=
  Artifact.results.foldl (j.writeAt perSecond) (j.toldFirst s)

/-- A worker that finds all its results written can complete. -/
theorem run_completed (j : LiveJob) (s : Spool MemoryScheduler)
    (hall : (Artifact.results.all fun a =>
      ((j.writtenAll s).files.file? (j.path a)).isSome) = true) :
    Relation.ReflTransGen j.Step ⟨s, .waiting⟩
      ⟨j.tellAt perSecond .completed (j.writtenAll s), .completed⟩ :=
  ((run_toldFirst j s).trans (run_results j _ _ _)).tail
    (Step.complete perSecond fun a ha =>
      Option.isSome_iff_exists.1 (List.all_eq_true.1 hall a ha))

/-- Someone else's name leads to the principal's folder. -/
def shared : Spool MemoryScheduler :=
  uploadedTo [([.text "jobs", .text "g"], .link ⟨"/jobs/v"⟩)]

/-- **From a folder that is shared,** someone else may remove the input. -/
theorem not_undisturbedWithout_secluded : ¬ UndisturbedWithout .secluded := by
  intro h
  have hbegins : (firstJob "a").Begins (upload "a.txt") _ shared :=
    begins_uploadedTo (by decide) (by decide +kernel)
  have hlacks : LacksOnly .secluded "a" Files.folderMode shared.files :=
    ⟨by decide +kernel, by decide +kernel, by decide +kernel,
      fun other => by cases other <;> decide +kernel⟩
  have hundisturbed : (firstJob "a").Undisturbed ⟨shared, .waiting⟩ :=
    h.undisturbed hbegins hlacks .refl
  have hl : shared.files.Leads (firstJob "a").folder home Files.folderMode :=
    ⟨hlacks.sound, by decide +kernel⟩
  have hvisitor : visitor ≠ (firstJob "a").owner := by decide
  have hkept := hundisturbed.kept (.deleteJob visitor "a") (fun hsame => absurd hsame hvisitor)
    home Files.folderMode "a" hl (by decide)
  have hremoved : ((Call.deleteJob visitor "a").run (firstJob "a").config shared).files.at?
      (home ++ [.text "a"]) ≠ shared.files.at? (home ++ [.text "a"]) := by decide +kernel
  dsimp only at hkept
  exact hremoved hkept

/-- A text of the principal. -/
def firstText : Submission :=
  .text ⟨0, fun _ => "0"⟩ "a.com"

/-- The spool after the text, in a folder that may not be read. -/
def unread : Spool MemoryScheduler :=
  after firstText (rootWith 0o300 [])

/-- The submission to the folder that cannot be read succeeds. -/
theorem begins_unread : (firstJob "job_19700101000000_0").Begins firstText (rootWith 0o300 [])
    unread := by
  have hs : unread.files.Sound := by decide +kernel
  have hl : unread.files.Leads (firstJob "job_19700101000000_0").folder home 0o300 :=
    ⟨hs, by decide +kernel⟩
  have honly : ∀ e ∈ unread.files.entries, e.1.length = 3 →
      e.1 = home ++ [.text "job_19700101000000_0"] := by decide +kernel
  refine begins_of_answered (by decide) ?_ (by decide +kernel)
    fun _ => ⟨by decide +kernel, fun here mode name f hl' hf _ => ?_⟩
  · exact fun _ => List.all_eq_true.1 (by decide : "0".toList.all FileName.isKept)
  · obtain rfl : here = home := hl.place_unique hl'
    have hat := Tree.fileAt?_eq_some_iff.1 (Tree.shownFile?_eq_some_iff.1 hf).2
    have hmem := (hs.mem_entries_iff (by simp)).2 hat
    simpa using honly _ hmem rfl

/-- **In a folder that may not be read,** nothing is listed. -/
theorem not_undisturbedWithout_readable : ¬ UndisturbedWithout .readable := by
  intro h
  have hlacks : LacksOnly .readable "job_19700101000000_0" 0o300 unread.files :=
    ⟨by decide +kernel, by decide +kernel, by decide +kernel,
      fun other => by cases other <;> decide +kernel⟩
  have hundisturbed : (firstJob "job_19700101000000_0").Undisturbed ⟨unread, .waiting⟩ :=
    h.undisturbed begins_unread hlacks .refl
  have hshown := hundisturbed.shownStates?_eq
  revert hshown
  decide +kernel

/-- A folder has the name of the progress file. -/
def blocked : Spool MemoryScheduler :=
  uploadedTo [(home ++ [.text "a.count"], .folder Files.folderMode)]

/-- **Where something else has the name of the progress file,** the progress is lost. -/
theorem not_undisturbedWithout_noProgress : ¬ UndisturbedWithout .noProgress := by
  intro h
  have hbegins : (firstJob "a").Begins (upload "a.txt") _ blocked :=
    begins_uploadedTo (by decide) (by decide +kernel)
  have hlacks : LacksOnly .noProgress "a" Files.folderMode blocked.files :=
    ⟨by decide +kernel, by decide +kernel, by decide +kernel,
      fun other => by cases other <;> decide +kernel⟩
  have hshown := (h.undisturbed hbegins hlacks (run_toldFirst _ _)).shownStates?_eq
  revert hshown
  decide +kernel

/-- The name of a result leads to a file elsewhere. -/
def linked : Spool MemoryScheduler :=
  uploadedTo [(home ++ [.text "a.csv"], .link ⟨"/a.txt"⟩)]

/-- **A result that is written elsewhere** is not listed. -/
theorem not_undisturbedWithout_noLink : ¬ UndisturbedWithout .noLink := by
  intro h
  have hbegins : (firstJob "a").Begins (upload "a.txt") _ linked :=
    begins_uploadedTo (by decide) (by decide +kernel)
  have hlacks : LacksOnly .noLink "a" Files.folderMode linked.files :=
    ⟨by decide +kernel, by decide +kernel, by decide +kernel,
      fun other => by cases other <;> decide +kernel⟩
  have hrun := run_completed (firstJob "a") linked (by decide +kernel)
  have hshown := (h.undisturbed hbegins hlacks hrun).shownStates?_eq
  revert hshown
  decide +kernel

/-! ### A name that is too long -/

/-- The folder before the long upload. -/
def empty : Tree :=
  (rootWith Files.folderMode []).files

/-- The folder of the owner is there, and may be used. -/
theorem leads_empty (stem : String) :
    empty.Leads (firstJob stem).folder home Files.folderMode :=
  ⟨by decide, (by decide +kernel : empty.find (firstJob "a").folder = _)⟩

/-- It is empty. -/
theorem at?_empty (name : String) : empty.at? (home ++ [.text name]) = none := by
  simp [empty, rootWith, home, Tree.at?]

section Long

variable {stem : String} (hsafe : FileName.IsSafe stem) (hsize : stem.utf8ByteSize = 250)

include hsize in
/-- The files of a job with a long name are not those of the hit list. -/
theorem notMem_reserved (a : Artifact) :
    a.fileName stem ∉ (firstJob stem).config.hitList.reserved := by
  have hshort : ∀ name ∈ (firstJob stem).config.hitList.reserved, name.utf8ByteSize < 250 :=
    (by decide +kernel : ∀ name ∈ (firstJob "a").config.hitList.reserved, name.utf8ByteSize < 250)
  have hlong : stem.utf8ByteSize ≤ (a.fileName stem).utf8ByteSize := by
    rw [Artifact.fileName]
    cases a.extension with
    | none => exact le_rfl
    | some extension =>
      have hsize' := FileName.utf8ByteSize_ofParts stem extension
      omega
  intro hmem
  have hlt := hshort _ hmem
  omega

include hsize in
/-- A name of 250 bytes can be used for an upload. -/
theorem isUsable_long :
    Store.IsUsable empty home (firstJob stem).config.hitList.reserved stem := by
  refine ⟨fun file f hf => ?_, fun a _ => notMem_reserved hsize a, at?_empty _⟩
  have hat := Tree.fileAt?_eq_some_iff.1 (Tree.shownFile?_eq_some_iff.1 hf).2
  cases (at?_empty file).symm.trans hat

include hsafe hsize

/-- An upload with such a name is granted all that it asks for. -/
theorem granted_long : Spool.Granted (firstJob stem).config (firstJob stem).owner 0
    ⟨⟨"/a.txt"⟩, stem⟩ (rootWith Files.folderMode []) home stem
    ⟨"x".toByteArray, Files.fileMode, 0⟩ := by
  have hname : Files.nameLimit = 255 := rfl
  have hpath : Files.pathLimit = 4096 := rfl
  have hfolder : (firstJob stem).folder.text.utf8ByteSize = 7 :=
    (by decide +kernel : (firstJob "a").folder.text.utf8ByteSize = 7)
  have hsource : empty.find ⟨"/a.txt"⟩
      = .ok ([.text "a.txt"], .file ⟨"x".toByteArray, Files.fileMode, 0⟩) := by decide +kernel
  refine ⟨⟨_, leads_empty stem, by decide⟩, FileName.uploadStem_eq_self_iff.2 hsafe, ?_,
    ⟨1, le_rfl, by decide, isUsable_long hsize⟩, ⟨[.text "a.txt"], hsource⟩, by decide, by decide,
    rfl⟩
  exact Store.refusesOnlyTaken_of_short (leads_empty stem) hsafe.isWord (by decide +kernel)
    (by omega) (by omega) 0

/-- **The upload is accepted,** and its input is all that is new. -/
theorem exists_begins_long : ∃ s' f, (firstJob stem).Begins (upload stem)
    (rootWith Files.folderMode []) s' ∧ Store.Gains empty s'.files home stem f := by
  obtain ⟨n, job, s', hn, hrun, hid, hticket, hgains⟩ :=
    Spool.submitFile_accepted (granted_long hsafe hsize)
  have hfirst : n = 1 := by
    by_contra hne
    have hpos := hn.pos
    exact hn.least 1 le_rfl (by omega) (isUsable_long hsize)
  subst hfirst
  rw [Store.candidate, if_pos rfl] at hid hgains
  have hs : (rootWith Files.folderMode []).files.Sound := by decide
  refine ⟨s', _, ⟨Config.isAccepted_minimal, hs, trivial, ⟨job, hrun, hid, hticket⟩,
    fun hmem => ?_⟩, hgains⟩
  cases hmem

end Long

section Gains

variable {stem : String} {t : Tree} {f : File} (hgains : Store.Gains empty t home stem f)

include hgains

/-- Only the input is new, so nothing stands under another name of the job. -/
theorem at?_fileName_of_gains {a : Artifact} (ha : a.extension ≠ none) :
    t.at? (home ++ [.text (a.fileName stem)]) = none := by
  have hne : a.fileName stem ≠ stem := by
    obtain ⟨extension, hextension⟩ := Option.ne_none_iff_exists'.1 ha
    have hsize := FileName.utf8ByteSize_ofParts stem extension
    rw [← hextension, ← Artifact.fileName] at hsize
    intro hsame
    rw [hsame] at hsize
    omega
  rw [hgains.fills.other _ (by simpa using hne), at?_empty]

/-- It stands in the owner's folder, so in the job root there are nothing but folders. -/
theorem isPlainlyMet_secluded_of_gains :
    isPlainlyMet stem Files.folderMode t .secluded = true := by
  have hempty : ∀ e ∈ empty.entries, (e.1.length != 2 || e.2.isFolder) = true := by decide
  refine List.all_eq_true.2 fun e he => ?_
  by_cases hlength : e.1.length = 2
  · have hne : e.1 ≠ [] := by
      intro hnil
      rw [hnil] at hlength
      cases hlength
    have hnot : e.1 ≠ home ++ [.text stem] := by
      intro hsame
      rw [hsame] at hlength
      cases hlength
    have hat := (hgains.fills.sound.mem_entries_iff hne).1 he
    rw [hgains.fills.other _ hnot] at hat
    exact hempty e (((leads_empty stem).sound.mem_entries_iff hne).2 hat)
  · simp [hlength]

/-- What is needed but room for the extension is there. -/
theorem lacksOnly_long : LacksOnly .short stem Files.folderMode t := by
  have hl := hgains.leads (leads_empty stem) (at?_empty stem)
  have hspares : Tree.Spares (fun _ => False) empty t :=
    hgains.fills.spares (Tree.fileOrFree_of_at? (at?_empty stem)) id
  have hroot : empty.Leads ⟨"/jobs"⟩ [.text "jobs"] Files.folderMode :=
    ⟨by decide, by decide +kernel⟩
  have hfolder : (firstJob stem).folder = ⟨"/jobs/v"⟩ :=
    (by decide +kernel : (firstJob "a").folder = ⟨"/jobs/v"⟩)
  refine ⟨hl.sound, (hroot.of_keeps hspares.sound hspares.keeps).find, hfolder ▸ hl.find,
    fun other hne => ?_⟩
  cases other with
  | secluded => exact isPlainlyMet_secluded_of_gains hgains
  | readable => exact (by decide : (Object.folder Files.folderMode).mayRead = true)
  | noProgress => exact Option.isNone_iff_eq_none.2 (at?_fileName_of_gains hgains (by decide))
  | noLink =>
    refine List.all_eq_true.2 fun a ha => Option.isNone_iff_eq_none.2 ?_
    refine at?_fileName_of_gains hgains ?_
    revert ha
    cases a <;> decide
  | short => exact absurd rfl hne

end Gains

/-- **A name that leaves no room for the extension** makes the progress be lost. -/
theorem not_undisturbedWithout_short {stem : String} (hsafe : FileName.IsSafe stem)
    (hsize : stem.utf8ByteSize = 250) : ¬ UndisturbedWithout .short := by
  intro h
  obtain ⟨s', f, hbegins, hgains⟩ := exists_begins_long hsafe hsize
  have hlacks := lacksOnly_long hgains
  have hl : s'.files.Leads (firstJob stem).folder home Files.folderMode :=
    hgains.leads (leads_empty stem) (at?_empty stem)
  have hundisturbed := h.undisturbed hbegins hlacks (run_toldFirst _ _)
  have hsame : ((firstJob stem).toldFirst s').files = s'.files := by
    refine ProgressFile.record_advanced_eq_self hl hsafe.isWord.isPlain
      (fun ⟨_, _, hname⟩ => ?_) _ _
    have hlong := ProgressFile.utf8ByteSize_fileName stem
    have hlimit : Files.nameLimit = 255 := rfl
    omega
  rw [← hsame] at hl
  obtain ⟨f', hf'⟩ := hundisturbed.exists_progressFile hl hsafe.ne_empty
  have hnone := Option.isNone_iff_eq_none.1 (hlacks.met .noProgress (by decide))
  rw [hsame, Tree.fileAt?_eq_some_iff] at hf'
  cases hnone.symm.trans hf'

/-! ### All needs -/

/-- **A live job is not always undisturbed.**  None of its needs can be spared, even if all the
others are met: its folder may be shared with someone else, or not be read; its progress file may be
in the way already, or have no room for its name; and a result may be written elsewhere. -/
theorem live_job_not_always_undisturbed :
    ¬ (∀ (j : LiveJob) (sub : Submission) (s s' : Spool MemoryScheduler) (w : World),
      j.Begins sub s s' → Relation.ReflTransGen j.Step ⟨s', .waiting⟩ w → j.Undisturbed w) ∧
    ∀ need, ¬ UndisturbedWithout need := by
  have hneeds : ∀ need, ¬ UndisturbedWithout need := by
    intro need
    cases need with
    | secluded => exact not_undisturbedWithout_secluded
    | readable => exact not_undisturbedWithout_readable
    | noProgress => exact not_undisturbedWithout_noProgress
    | noLink => exact not_undisturbedWithout_noLink
    | short =>
      have hsafe : FileName.IsSafe (ProgressFile.copies 'a' 250) :=
        ProgressFile.isSafe_copies 249
      exact not_undisturbedWithout_short hsafe (ProgressFile.utf8ByteSize_copies (by decide) 250)
  refine ⟨fun h => hneeds .secluded fun j sub s s' w hbegins _ hrun => ?_, hneeds⟩
  exact h j sub s s' w hbegins hrun

end LiveJob
end JobSpool
