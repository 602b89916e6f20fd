/-
# What is listed can be deleted

`delete_job`: `SPEC_FULL.md`, 4.3, "removes every artifact sharing `stem`".

A deletion takes a stem and looks at the files of the folder, while a listing makes the stems out
of their names.  The two agree as far as a stem is plain: a deletion of it succeeds, and once no
removal has failed, nothing of the stem is left (`find?_after_deletion`).  For a stem other than
the name of the hit list that is so because the group of the stem is empty afterwards, and for the
name of the hit list because both of its files are gone.

They agree no further than that.  A file may be called `a\b`, and then a job is listed under a
stem that is not plain, so that every deletion of it is refused (`isPlain_stem_iff`).  And a job
may have the name of the hit list as its stem, since `spamhaus.txt.log` is no file of the hit
list; a deletion under that name means the hit list, whose files are others.

That a run of removals reports no failure means that every file of it could be removed
(`Store.removable_of_failures_eq_nil`), because a listed file is never missing.
-/

import JobSpool.Config.Load
import JobSpool.Proofs.Enumeration

namespace JobSpool

open Files (Tree Place File Object Fault)

namespace Store

variable {t : Tree} {folder : Path} {place : Place} {mode : Nat} {es : List Entry}

/-- A file in a folder is never missing when it is to be removed. -/
theorem removalFault?_ne_noEntry (hl : t.Leads folder place mode) {name : String}
    (hn : Path.IsStep name) : removalFault? mode (folder.join name) ≠ some (.system .noEntry) := by
  have hpath := Tree.refusal?_join_ne_noEntry hl.text_ne_nil hn
  rw [removalFault?]
  split
  · rename_i fault hr
    rwa [hr] at hpath
  · split <;> simp

/-- A removal that fails is reported, unless the file is gone. -/
theorem failures_failedRemoval_ne_nil {fault : Fault} (h : fault ≠ .system .noEntry)
    (e : Entry) : (failedRemoval e fault).failures ≠ [] := by
  unfold failedRemoval
  split
  · exact absurd rfl h
  · exact List.cons_ne_nil _ _

/-- So a removal without a failure took the file away. -/
theorem removalFault?_eq_none (hl : t.Leads folder place mode) {e : Entry}
    (h : Listed t folder place [e]) (hclean : (removal mode e).failures = []) :
    removalFault? mode e.path = none := by
  obtain ⟨f, hf⟩ := h.file e (List.mem_singleton_self e)
  obtain ⟨hstep, -⟩ := hl.sound.isLegal (Tree.fileAt?_eq_some_iff.1 hf)
  have hentry := removalFault?_ne_noEntry hl hstep
  rw [← h.path e (List.mem_singleton_self e)] at hentry
  rw [removal] at hclean
  split at hclean
  · assumption
  · rename_i fault hfault
    refine absurd hclean (failures_failedRemoval_ne_nil ?_ e)
    rintro rfl
    exact hentry hfault

/-- **A run of removals without a failure** took every file away. -/
theorem removable_of_failures_eq_nil (hl : t.Leads folder place mode)
    (h : Listed t folder place es) (hclean : (removeEntries es t).1.failures = []) :
    Removable t folder place es := by
  refine h.removable fun name hname => ?_
  obtain ⟨e, he, rfl⟩ := List.mem_map.1 hname
  rw [removeEntries_eq_removal hl h, removals, List.flatMap_eq_nil_iff] at hclean
  obtain ⟨f, hf⟩ := h.file e he
  have hfault := removalFault?_eq_none hl
    (h.sublist (List.singleton_sublist.2 he)) (hclean e he)
  have hremove := remove_join hl hf
  rw [h.path e he] at hfault
  rw [hfault] at hremove
  exact ⟨_, hremove⟩

/-- A run reports no other file than one of the list as removed, -/
theorem mem_removed_removals {name : String} (h : name ∈ (removals mode es).removed) :
    name ∈ es.map (·.fileName) := by
  obtain ⟨e, he, hname⟩ := List.mem_flatMap.1 h
  have hself : name = e.fileName := by
    rw [removal] at hname
    split at hname
    · exact List.mem_singleton.1 hname
    · unfold failedRemoval at hname
      split at hname <;> cases hname
  exact hself ▸ List.mem_map_of_mem he

/-- and clears no other place. -/
theorem mem_of_mem_cleared {other : Place} (h : other ∈ cleared mode place es) :
    other ∈ es.map (placeIn place) := by
  obtain ⟨e, he, rfl⟩ := List.mem_map.1 h
  exact List.mem_map_of_mem (List.mem_of_mem_filter he)

end Store

namespace Spool

variable {c : Config} {p : Principal} {t t' : Tree} {place : Place} {mode : Nat}
  {entries : List Entry} {stem : String}

/-! ### A deletion, and the listing after it -/

/-- The files of a listing that go with a stem. -/
def deletedFiles (c : Config) (stem : String) (entries : List Entry) : List Entry :=
  entries.filter (isDeletedWith c stem)

/-- The files of a listing that stay. -/
def keptWithout (c : Config) (stem : String) (entries : List Entry) : List Entry :=
  entries.filter fun e => !isDeletedWith c stem e

/-- **A stem that is not plain is refused,** whatever the folder holds. -/
theorem deleteJob_of_not_isPlain (h : FileName.isPlain stem = false) :
    deleteJob c p stem t = .error (.storage (.invalidName stem)) := by
  rw [deleteJob, h]
  rfl

/-- A plain stem has its files removed, one by one. -/
theorem deleteJob_of_isPlain (hl : t.Leads (c.store.folder p) place mode)
    (hentries : Store.list (c.store.folder p) t = .ok entries)
    (h : FileName.isPlain stem = true) :
    deleteJob c p stem t = .ok (Store.removeEntries (deletedFiles c stem entries) t) := by
  simp only [deleteJob, h, hl.isFolder, hentries, deletedFiles, Bool.not_true, Bool.false_eq_true,
    if_false]

/-- The files that a deletion takes are files of the folder. -/
theorem listed_deletedFiles (hl : t.Leads (c.store.folder p) place mode)
    (hentries : Store.list (c.store.folder p) t = .ok entries) (stem : String) :
    Store.Listed t (c.store.folder p) place (deletedFiles c stem entries) :=
  (Store.listed_of_list hl hentries).sublist List.filter_sublist

/-- **A deletion in which every file can be removed,** written out. -/
theorem deleteJob_eq (hl : t.Leads (c.store.folder p) place mode)
    (hentries : Store.list (c.store.folder p) t = .ok entries)
    (h : FileName.isPlain stem = true)
    (hremove : Store.Removable t (c.store.folder p) place (deletedFiles c stem entries)) :
    deleteJob c p stem t = .ok ({ removed := (deletedFiles c stem entries).map (·.fileName) },
      t.without ((deletedFiles c stem entries).map (Store.placeIn place))) := by
  rw [deleteJob_of_isPlain hl hentries h, Store.removeEntries_eq hl hremove]

/-- **What a deletion does, be it that removals fail:** it reports and takes away only files that
go with the stem, and without a failure all of them. -/
theorem exists_report (hl : t.Leads (c.store.folder p) place mode)
    (hentries : Store.list (c.store.folder p) t = .ok entries)
    (hplain : FileName.isPlain stem = true) :
    ∃ report t', deleteJob c p stem t = .ok (report, t') ∧
      (∀ name ∈ report.removed, name ∈ (deletedFiles c stem entries).map (·.fileName)) ∧
      (∀ other, other ∉ (deletedFiles c stem entries).map (Store.placeIn place) →
        t'.at? other = t.at? other) ∧
      (report.failures = [] →
        Store.Removable t (c.store.folder p) place (deletedFiles c stem entries) ∧
          report.removed = (deletedFiles c stem entries).map (·.fileName) ∧
            t' = t.without ((deletedFiles c stem entries).map (Store.placeIn place))) := by
  have hlisted := listed_deletedFiles hl hentries stem
  have hrun := Store.removeEntries_eq_removal hl hlisted
  refine ⟨_, _, (deleteJob_of_isPlain hl hentries hplain).trans (congrArg Except.ok hrun),
    fun _ => Store.mem_removed_removals, fun other hother => ?_, fun hclean => ?_⟩
  · exact Tree.at?_without_of_notMem fun hmem => hother (Store.mem_of_mem_cleared hmem)
  · have hfailures := congrArg (fun x : RemovalReport × Tree => x.1.failures) hrun
    have hremove := Store.removable_of_failures_eq_nil hl hlisted (hfailures.trans hclean)
    have hboth := hrun.symm.trans (Store.removeEntries_eq hl hremove)
    exact ⟨hremove, congrArg (fun x : RemovalReport × Tree => x.1.removed) hboth,
      congrArg Prod.snd hboth⟩

/-- Under any other name, a deletion takes what has the stem and is not of the hit list. -/
theorem isDeletedWith_of_ne (h : stem ≠ c.hitList.fileName) (e : Entry) :
    isDeletedWith c stem e = (e.stem == stem && !c.hitList.owns e.fileName) := by
  rw [isDeletedWith, if_neg (by simpa using h)]

/-- Under the name of the hit list, a deletion takes the two files of the hit list. -/
theorem isDeletedWith_fileName (c : Config) (e : Entry) :
    isDeletedWith c c.hitList.fileName e = c.hitList.owns e.fileName := by
  rw [isDeletedWith, if_pos (by simp)]

/-- Another stem than the name of the hit list has no file of a job left, -/
theorem entries_group_keptWithout (h : stem ≠ c.hitList.fileName) :
    (JobFiles.group (jobEntries c (keptWithout c stem entries)) stem).entries = [] := by
  rw [List.eq_nil_iff_forall_not_mem]
  intro e he
  obtain ⟨hjob, hstem⟩ := JobFiles.mem_group.1 he
  obtain ⟨hkept, howns⟩ := mem_jobEntries.1 hjob
  have hstays := (List.mem_filter.1 hkept).2
  rw [isDeletedWith_of_ne h, hstem, howns] at hstays
  simp at hstays

/-- while the name of the hit list leaves the files of jobs alone, -/
theorem jobEntries_keptWithout_fileName (c : Config) (entries : List Entry) :
    jobEntries c (keptWithout c c.hitList.fileName entries) = jobEntries c entries := by
  rw [jobEntries, keptWithout, List.filter_filter, jobEntries]
  exact List.filter_congr fun e _ => by rw [isDeletedWith_fileName, Bool.and_self]

/-- and takes those of the hit list. -/
theorem hitListEntries_keptWithout_fileName (c : Config) (entries : List Entry) :
    hitListEntries c (keptWithout c c.hitList.fileName entries) = [] := by
  rw [hitListEntries, keptWithout, List.filter_filter, List.filter_eq_nil_iff]
  intro e _
  rw [isDeletedWith_fileName, Bool.and_not_self]
  exact Bool.false_ne_true

/-- The summary of the hit list has the name of its file. -/
theorem stem_of_hitListSummary? {j : JobSummary} (h : hitListSummary? c p entries = some j) :
    j.stem = c.hitList.fileName := by
  rw [hitListSummary?] at h
  dsimp only at h
  split at h
  · cases h
    rfl
  · cases h

/-- **Nothing is found under a stem whose files are gone.**  A job that has the name of the hit
list as its stem is another matter, since its files are not those of the hit list. -/
theorem find?_after_deletion (p : Principal) (t' : Tree)
    (hjobs : stem = c.hitList.fileName →
      ∀ j ∈ (listingOf c p t entries).jobs, j.stem ≠ stem) :
    (listingOf c p t' (keptWithout c stem entries)).find? stem = none := by
  rw [JobListing.find?_eq_none_iff]
  by_cases h : stem = c.hitList.fileName
  · subst h
    refine ⟨fun j hj hstem => ?_, fun j hj _ => ?_⟩
    · have hstate := exists_mem_jobs_iff.1 ⟨j, hj, hstem⟩
      rw [jobEntries_keptWithout_fileName] at hstate
      obtain ⟨k, hk, hsame⟩ := exists_mem_jobs_iff (p := p) (t := t).2 hstate
      exact hjobs rfl k hk hsame
    · have hnone : hitListSummary? c p [] = some j :=
        hitListEntries_keptWithout_fileName c entries ▸ hj
      cases hnone
  · refine ⟨fun j hj hstem => ?_, fun j hj hstem => ?_⟩
    · have hstate := exists_mem_jobs_iff.1 ⟨j, hj, hstem⟩
      rw [JobFiles.state?_eq_none_of_entries (entries_group_keptWithout h)] at hstate
      cases hstate
    · exact h (hstem.symm.trans (stem_of_hitListSummary? hj))

/-! ### The stems that are listed -/

section Listed

variable (hl : t.Leads (c.store.folder p) place mode)
  (hentries : Store.list (c.store.folder p) t = .ok entries)

include hl hentries

/-- **A stem of a listed file is plain** unless it has one of two characters. -/
theorem isPlain_stem_iff {e : Entry} (he : e ∈ entries) : FileName.isPlain e.stem = true ↔
    '\\' ∉ e.stem.toList ∧ '\x00' ∉ e.stem.toList := by
  have hne := ne_empty_of_mem hl hentries he
  obtain ⟨name, f, hf, rfl⟩ := (Store.mem_list_iff hl hentries).1 he
  obtain ⟨hdot, hfile⟩ := Tree.shownFile?_eq_some_iff.1 hf
  obtain ⟨hstep, -⟩ := hl.sound.isLegal (Tree.fileAt?_eq_some_iff.1 hfile)
  have hhead : (FileName.split name).1.toList.head? ≠ some '.' := by
    rwa [FileName.head?_fst_split]
  have hslash : '/' ∉ (FileName.split name).1.toList := fun hmem =>
    hstep.2 ((FileName.fst_split_prefix name).subset hmem)
  exact FileName.isPlain_iff.trans (and_iff_right ⟨hne, hhead, hslash⟩)

omit hl hentries in
/-- A job that is listed has a file. -/
theorem exists_entry_of_mem_jobs {j : JobSummary} (hj : j ∈ (listingOf c p t entries).jobs) :
    ∃ e ∈ entries, e.stem = j.stem := by
  have hstate := exists_mem_jobs_iff.1 ⟨j, hj, rfl⟩
  obtain ⟨state, hstate⟩ := Option.isSome_iff_exists.1 hstate
  have hgroup := JobFiles.mem_groups.1 (JobFiles.group_mem_groups hstate)
  obtain ⟨e, he, hstem⟩ := JobFiles.mem_stems.1 hgroup.1
  exact ⟨e, (mem_jobEntries.1 he).1, hstem⟩

/-- **What is listed has a plain stem** unless the stem has one of two characters. -/
theorem isPlain_iff_of_mem_summaries (hc : c.IsAccepted) {j : JobSummary}
    (hj : j ∈ (listingOf c p t entries).summaries) : FileName.isPlain j.stem = true ↔
      '\\' ∉ j.stem.toList ∧ '\x00' ∉ j.stem.toList := by
  rcases JobListing.mem_summaries_iff.1 hj with hj | hj
  · obtain ⟨e, he, hstem⟩ := exists_entry_of_mem_jobs hj
    exact hstem ▸ isPlain_stem_iff hl hentries he
  · have hplain : FileName.isPlain j.stem = true :=
      (stem_of_hitListSummary? hj).symm ▸ hc.isPlain_fileName
    exact ⟨fun _ => (FileName.isPlain_iff.1 hplain).2, fun _ => hplain⟩

end Listed

/-- What is listed comes from the files of a folder, if there is a folder. -/
theorem listJobs_eq_ok (hs : t.Sound) {l : JobListing} (h : listJobs c p t = .ok l) :
    l = {} ∨ ∃ place mode entries, t.Leads (c.store.folder p) place mode ∧
      Store.list (c.store.folder p) t = .ok entries ∧ l = listingOf c p t entries := by
  cases hfolder : t.isFolder (c.store.folder p) with
  | false =>
    rw [listJobs, hfolder] at h
    cases h
    exact Or.inl rfl
  | true =>
    obtain ⟨place, mode, hl⟩ := Tree.exists_leads_of_isFolder hs hfolder
    obtain ⟨entries, hentries, hlisting⟩ := exists_entries_of_listJobs hl h
    exact Or.inr ⟨place, mode, entries, hl, hentries, hlisting⟩

/-- **A plain stem that is deleted without a failure** is found no more. -/
theorem exists_deletion (hl : t.Leads (c.store.folder p) place mode)
    (hentries : Store.list (c.store.folder p) t = .ok entries)
    (hplain : FileName.isPlain stem = true) :
    ∃ report t', deleteJob c p stem t = .ok (report, t') ∧
      (report.failures = [] →
        (stem = c.hitList.fileName → ∀ k ∈ (listingOf c p t entries).jobs, k.stem ≠ stem) →
          ∃ l', listJobs c p t' = .ok l' ∧ l'.find? stem = none) := by
  obtain ⟨report, t', hdelete, -, -, hall⟩ := exists_report hl hentries hplain
  refine ⟨report, t', hdelete, fun hclean hjobs => ?_⟩
  obtain ⟨hremove, -, rfl⟩ := hall hclean
  have hentries' : Store.list (c.store.folder p)
      (t.without ((deletedFiles c stem entries).map (Store.placeIn place)))
        = .ok (keptWithout c stem entries) := Store.list_without_filter hl hentries _
  exact ⟨_, listJobs_eq (hl.without hremove.allFiles) hentries', find?_after_deletion p _ hjobs⟩

/-- **What is listed can be deleted, if its stem is plain.**  Only a backslash or a null character
makes a stem that is listed not plain, and then every deletion of it is refused; the hit list has
neither.  A deletion that reports no failure leaves nothing to be found under the stem, unless the
stem is the name of the hit list and a job has it, too. -/
theorem listed_can_be_deleted (hc : c.IsAccepted) (hs : t.Sound) {l : JobListing}
    (hlist : listJobs c p t = .ok l) {j : JobSummary} (hj : j ∈ l.summaries) :
    (l.hitList = some j → FileName.isPlain j.stem = true) ∧
    (FileName.isPlain j.stem = true ↔ '\\' ∉ j.stem.toList ∧ '\x00' ∉ j.stem.toList) ∧
    (FileName.isPlain j.stem = false →
      deleteJob c p j.stem t = .error (.storage (.invalidName j.stem))) ∧
    (FileName.isPlain j.stem = true → ∃ report t', deleteJob c p j.stem t = .ok (report, t') ∧
      (report.failures = [] →
        (j.stem = c.hitList.fileName → ∀ k ∈ l.jobs, k.stem ≠ j.stem) →
          ∃ l', listJobs c p t' = .ok l' ∧ l'.find? j.stem = none)) := by
  rcases listJobs_eq_ok hs hlist with rfl | ⟨place, mode, entries, hl, hentries, rfl⟩
  · cases hj
  · refine ⟨fun hhits => ?_, isPlain_iff_of_mem_summaries hl hentries hc hj,
      deleteJob_of_not_isPlain, exists_deletion hl hentries⟩
    exact (stem_of_hitListSummary? hhits).symm ▸ hc.isPlain_fileName

/-! ### A folder with two names that are not what they seem -/

/-- One file has a backslash in its name, and one is no file of the hit list, but of a job with
the hit list's name. -/
def misleading : Tree where
  entries := [([.text "jobs"], .folder Files.folderMode),
    ([.text "jobs", .text "q"], .folder Files.folderMode)]
    ++ ["a\\b", "spamhaus.txt.log", "c.csv"].map fun name =>
      ([.text "jobs", .text "q", .text name], .file ⟨ByteArray.empty, Files.fileMode, 0⟩)
  home := []

/-- The owner of the folder. -/
def misleadingOwner : Principal :=
  ⟨"q", by decide⟩

/-- The folder of the example is there. -/
theorem leads_misleading :
    misleading.Leads ⟨"/jobs/q"⟩ [.text "jobs", .text "q"] Files.folderMode :=
  ⟨by decide, rfl⟩

/-- The files of the folder. -/
def misleadingEntries : List Entry :=
  (misleading.children [.text "jobs", .text "q"]).filterMap (Store.entryOf? ⟨"/jobs/q"⟩ true)

/-- It is listed with all its files. -/
theorem list_misleading : Store.list ⟨"/jobs/q"⟩ misleading = .ok misleadingEntries :=
  (Store.list_eq_ok_iff leads_misleading).2 ⟨by decide, rfl⟩

/-- What is listed of them. -/
def misleadingListing : JobListing :=
  listingOf (.withJobRoot ⟨"/jobs"⟩) misleadingOwner misleading misleadingEntries

/-- What its owner is shown. -/
theorem listJobs_misleading : listJobs (.withJobRoot ⟨"/jobs"⟩) misleadingOwner misleading
    = .ok misleadingListing :=
  listJobs_eq leads_misleading list_misleading

/-- Every group of it that is a job is shown. -/
theorem exists_job_misleading (stem : String) (h : (JobFiles.group
    (jobEntries (.withJobRoot ⟨"/jobs"⟩) misleadingEntries) stem).state?.isSome = true) :
    ∃ j ∈ misleadingListing.summaries, j ∈ misleadingListing.jobs ∧ j.stem = stem := by
  obtain ⟨j, hj, hstem⟩ := exists_mem_jobs_iff.2 h
  exact ⟨j, JobListing.mem_summaries_iff.2 (Or.inl hj), hj, hstem⟩

/-- The job `c` can be deleted, and is found no more. -/
theorem listed_can_be_deleted_misleading :
    ∃ j ∈ misleadingListing.summaries, j.stem = "c" ∧
      ∃ report t', deleteJob (.withJobRoot ⟨"/jobs"⟩) misleadingOwner j.stem misleading
          = .ok (report, t') ∧ report.failures = [] ∧
        ∃ l', listJobs (.withJobRoot ⟨"/jobs"⟩) misleadingOwner t' = .ok l' ∧
          l'.find? j.stem = none := by
  obtain ⟨j, hj, -, hstem⟩ := exists_job_misleading "c" (by decide)
  obtain ⟨-, -, -, hdelete⟩ := listed_can_be_deleted Config.isAccepted_minimal
    leads_misleading.sound listJobs_misleading hj
  obtain ⟨report, t', hreport, hgone⟩ := hdelete (hstem ▸ by decide)
  have hanswer : (deleteJob (.withJobRoot ⟨"/jobs"⟩) misleadingOwner "c" misleading).toOption.map
      (·.1.failures) = some [] := by decide
  have hclean : report.failures = [] := by
    rw [hstem] at hreport
    rw [hreport] at hanswer
    exact Option.some.inj hanswer
  have hother : j.stem ≠ (Config.withJobRoot ⟨"/jobs"⟩).hitList.fileName := hstem ▸ by decide
  exact ⟨j, hj, hstem, report, t', hreport, hclean, hgone hclean fun heq => absurd heq hother⟩

/-- A job is listed that no deletion takes, and one that is still found when a deletion of its
stem has reported no failure. -/
theorem misleading_not_deleted :
    (Config.withJobRoot ⟨"/jobs"⟩).IsAccepted ∧ misleading.Sound ∧
    ∃ l, listJobs (.withJobRoot ⟨"/jobs"⟩) misleadingOwner misleading = .ok l ∧
      (∃ j ∈ l.summaries, j.stem = "a\\b" ∧
        deleteJob (.withJobRoot ⟨"/jobs"⟩) misleadingOwner j.stem misleading
          = .error (.storage (.invalidName j.stem))) ∧
      ∃ j ∈ l.summaries, j.stem = "spamhaus.txt" ∧
        deleteJob (.withJobRoot ⟨"/jobs"⟩) misleadingOwner j.stem misleading
          = .ok ({}, misleading) ∧ l.find? j.stem ≠ none := by
  refine ⟨Config.isAccepted_minimal, leads_misleading.sound, misleadingListing,
    listJobs_misleading, ?_, ?_⟩
  · obtain ⟨j, hj, -, hstem⟩ := exists_job_misleading "a\\b" (by decide)
    exact ⟨j, hj, hstem, deleteJob_of_not_isPlain (hstem ▸ by decide)⟩
  · obtain ⟨j, hj, hjob, hstem⟩ := exists_job_misleading "spamhaus.txt" (by decide)
    refine ⟨j, hj, hstem, ?_, fun hnone => ?_⟩
    · have hanswer := deleteJob_of_isPlain (c := .withJobRoot ⟨"/jobs"⟩) (p := misleadingOwner)
        leads_misleading list_misleading (show FileName.isPlain "spamhaus.txt" = true by decide)
      have hnothing : deletedFiles (.withJobRoot ⟨"/jobs"⟩) "spamhaus.txt" misleadingEntries
          = [] := by decide
      rw [hstem, hanswer, hnothing]
      rfl
    · exact (JobListing.find?_eq_none_iff.1 hnone).1 j hjob rfl

end Spool
end JobSpool
