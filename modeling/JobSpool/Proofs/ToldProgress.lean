/-
# Two ways to ask for progress

`progress_of` and `list_jobs`: `SPEC_FULL.md`, 4.3 and 4.4.

The progress of a job can be asked for by its stem, which makes the name of its progress file, or be
taken from a listing, where every name is cut into a stem and an extension.  The two ways meet in
what the folder has under that one name (`toldProgress?`): a reader gets it from there
(`progressOf_eq_toldProgress?`), and so does a listing, since a stem with a progress file is a
running job whatever else it has (`exists_running_iff`).

A link is followed by a reader and left out of a listing, and the files of the hit list are no
job's, so neither may have the name of the progress file.
-/

import JobSpool.Proofs.Deletions
import JobSpool.Proofs.Principals

namespace JobSpool

open Files (Tree Place File Object)

namespace Spool

variable {c : Config} {p : Principal} {t : Tree} {place : Place} {mode : Nat} {stem : String}
  {entries : List Entry}

/-! ### In a listing -/

/-- **A progress file makes its stem a job.** -/
theorem isJobStem_of_progressFile {f : File} (hs : stem ≠ "")
    (hf : jobFile? c t place stem .progress = some f) : IsJobStem c t place stem := by
  have hsplit : FileName.split (Artifact.progress.fileName stem) = (stem, some "count") :=
    Artifact.split_fileName hs (by decide) (by decide)
  rw [jobFile?] at hf
  split at hf
  · cases hf
  · rename_i howns
    refine ⟨_, f, hf, Bool.not_eq_true _ ▸ howns, ?_, ?_⟩
    · rw [hsplit]
    · rw [hsplit]
      rfl

/-- **A listing shows a stem as running with some counts** if its progress file tells them. -/
theorem exists_running_iff (hl : t.Leads (c.store.folder p) place mode)
    (hentries : Store.list (c.store.folder p) t = .ok entries) (hs : stem ≠ "") (q : Progress) :
    (∃ j ∈ (listingOf c p t entries).running, j.stem = stem ∧ j.progress = some q) ↔
      toldProgress? c t (c.store.folder p) place stem = some q := by
  constructor
  · rintro ⟨j, hj, rfl, hq⟩
    have hmem : j ∈ (listingOf c p t entries).jobsIn .running := hj
    obtain ⟨hsummary, hstate⟩ := mem_jobsIn_iff.1 hmem
    by_cases hjob : IsJobStem c t place j.stem
    · rw [summary?_group_eq hl hentries hjob, Option.some_inj] at hsummary
      rw [← hsummary, shownJob] at hstate hq
      rwa [if_pos hstate] at hq
    · rw [summary?_group_eq_none hl hentries hjob] at hsummary
      cases hsummary
  · intro htold
    obtain ⟨f, hf, -⟩ := Option.bind_eq_some_iff.1 htold
    have hfile : hasFile c t place stem .progress = true := by
      rw [hasFile, hf]
      rfl
    have hsection : sectionOf c t place stem = .running := by rw [sectionOf, if_pos hfile]
    have hmem := shownJob_mem_jobsIn hl hentries (isJobStem_of_progressFile hs hf)
    rw [hsection] at hmem
    refine ⟨_, hmem, rfl, ?_⟩
    rw [shownJob, if_pos hsection, htold]

/-! ### By the stem -/

/-- **Files of plain stems are not hidden,** so those that are of no hit list are just there. -/
theorem jobFile?_of_isPlain (hplain : FileName.isPlain stem = true) {a : Artifact}
    (howns : c.hitList.owns (a.fileName stem) = false) :
    jobFile? c t place stem a = t.fileAt? place (a.fileName stem) := by
  have hshown : (a.fileName stem).toList.head? ≠ some '.' :=
    (FileName.isPlain_iff.1 (a.isPlain_fileName hplain)).1.2.1
  rw [jobFile?, howns, Tree.shownFile?, if_neg hshown]
  rfl

/-- For a plain stem the progress is what its progress file tells. -/
theorem progressOf_of_isPlain (hplain : FileName.isPlain stem = true) :
    progressOf c p stem t = ProgressFile.read? t (ProgressFile.path (c.store.folder p) stem) := by
  rw [progressOf, hplain]
  rfl

/-- What is told stands in the folder, if no link has its name. -/
theorem exists_file_of_progressOf (hl : t.Leads (c.store.folder p) place mode)
    (hplain : FileName.isPlain stem = true)
    (hlink : ∀ target,
      t.at? (place ++ [.text (Artifact.progress.fileName stem)]) ≠ some (.link target))
    {q : Progress} (hq : progressOf c p stem t = some q) :
    ∃ f text, t.at? (place ++ [.text (Artifact.progress.fileName stem)]) = some (.file f) ∧
      Text.strict f.content = some text ∧ Progress.ofText? text = some q := by
  rw [progressOf_of_isPlain hplain] at hq
  obtain ⟨place', f, text, hfind, htext, hcounts⟩ := ProgressFile.read?_eq_some hq
  have hn := FileName.isStep_of_isPlain (Artifact.isPlain_fileName .progress hplain)
  exact ⟨f, text, (hl.eq_of_find hn hlink hfind).2, htext, hcounts⟩

/-- **The progress of a stem is what its file in the folder tells,** if that is a file of a job and
no link. -/
theorem progressOf_eq_toldProgress? (hl : t.Leads (c.store.folder p) place mode)
    (hplain : FileName.isPlain stem = true)
    (howns : c.hitList.owns (Artifact.progress.fileName stem) = false)
    (hlink : ∀ target,
      t.at? (place ++ [.text (Artifact.progress.fileName stem)]) ≠ some (.link target)) :
    progressOf c p stem t = toldProgress? c t (c.store.folder p) place stem := by
  rw [toldProgress?, jobFile?_of_isPlain hplain howns]
  cases hat : t.fileAt? place (Artifact.progress.fileName stem) with
  | some f =>
    rw [progressOf_of_isPlain hplain, ProgressFile.path, ProgressFile.read?_join hl hat]
    rfl
  | none =>
    rw [Option.bind_none, Option.eq_none_iff_forall_ne_some]
    intro q hq
    obtain ⟨f, text, hf, -⟩ := exists_file_of_progressOf hl hplain hlink hq
    rw [Tree.fileAt?_eq_some_iff.2 hf] at hat
    cases hat

/-- **The two ways to ask for progress agree.**  For a plain stem whose progress file is no link and
not of the hit list, a reader is told some counts exactly if a listing shows the stem as running
with these counts.  So there are none for a stem that is not shown as running, and none but those
that a file in the folder holds, as a text with two counts.  Where the folder is missing nothing is
listed, and where it may be read a listing succeeds. -/
theorem progress_told_alike (c : Config) (p : Principal) {t : Tree} (hs : t.Sound) {stem : String}
    (hplain : FileName.isPlain stem = true)
    (howns : c.hitList.owns (Artifact.progress.fileName stem) = false)
    (hlink : c.store.HasNoLink p t (Artifact.progress.fileName stem)) :
    (∀ l, listJobs c p t = .ok l →
      (∀ q, progressOf c p stem t = some q ↔
        ∃ j ∈ l.running, j.stem = stem ∧ j.progress = some q) ∧
      ((∀ j ∈ l.running, j.stem ≠ stem) → progressOf c p stem t = none)) ∧
    (t.isFolder (c.store.folder p) = false → listJobs c p t = .ok {}) ∧
    ∀ place mode, t.Leads (c.store.folder p) place mode →
      ((Object.folder mode).mayRead = true → ∃ l, listJobs c p t = .ok l) ∧
      ∀ q, progressOf c p stem t = some q →
        ∃ f text, t.at? (place ++ [.text (Artifact.progress.fileName stem)]) = some (.file f) ∧
          Text.strict f.content = some text ∧ Progress.ofText? text = some q := by
  have hne : stem ≠ "" := (FileName.isPlain_iff.1 hplain).1.1
  have hagree : ∀ l, listJobs c p t = .ok l → ∀ q, progressOf c p stem t = some q ↔
      ∃ j ∈ l.running, j.stem = stem ∧ j.progress = some q := by
    intro l hlist q
    -- Without a folder there is nothing to tell, for either of them.
    cases hfolder : t.isFolder (c.store.folder p) with
    | false =>
      obtain rfl := Except.ok.inj ((listJobs_of_not_isFolder hfolder).symm.trans hlist)
      rw [progressOf_of_not_isFolder hs hfolder]
      simp
    | true =>
      obtain ⟨place, mode, hl⟩ := Tree.exists_leads_of_isFolder hs hfolder
      obtain ⟨entries, hentries, rfl⟩ := exists_entries_of_listJobs hl hlist
      rw [progressOf_eq_toldProgress? hl hplain howns (hlink place mode hl)]
      exact (exists_running_iff hl hentries hne q).symm
  refine ⟨fun l hlist => ⟨hagree l hlist, fun hnot => ?_⟩, listJobs_of_not_isFolder,
    fun place mode hl => ⟨fun hread => ?_, fun q => ?_⟩⟩
  · rw [Option.eq_none_iff_forall_ne_some]
    intro q hq
    obtain ⟨j, hj, hstem, -⟩ := (hagree l hlist q).1 hq
    exact hnot j hj hstem
  · obtain ⟨entries, hentries⟩ := Store.exists_list_eq_ok hl hread
    exact ⟨_, listJobs_eq hl hentries⟩
  · exact exists_file_of_progressOf hl hplain (hlink place mode hl)

/-- A progress file with two counts. -/
def twoCounts : File :=
  ⟨"3 9\n".toByteArray, Files.fileMode, 0⟩

/-- A folder with the progress file of a stem with a dot. -/
def counting : Tree where
  entries := [
    ([.text "h"], .folder Store.folderMode),
    ([.text "h", .text "a.b.count"], .file twoCounts),
    ([.text "h", .text "a.csv"], .file ⟨"".toByteArray, Files.fileMode, 0⟩)]
  home := []

/-- The principal of the folder. -/
def countingOwner : Principal :=
  ⟨"h", by decide⟩

/-- The folder of the example is there. -/
theorem leads_counting : counting.Leads ⟨"/h"⟩ [.text "h"] Store.folderMode :=
  ⟨by decide, rfl⟩

/-- A stem with a dot in it: both ways tell the same. -/
theorem progress_told_alike_dotted :
    counting.Sound ∧ FileName.isPlain "a.b" = true ∧
    (Config.withJobRoot ⟨"/"⟩).hitList.owns "a.b.count" = false ∧
    (Config.withJobRoot ⟨"/"⟩).store.HasNoLink countingOwner counting "a.b.count" ∧
    progressOf (.withJobRoot ⟨"/"⟩) countingOwner "a.b" counting = some ⟨3, 9⟩ ∧
    ∃ l, listJobs (.withJobRoot ⟨"/"⟩) countingOwner counting = .ok l ∧
      ∃ j ∈ l.running, j.stem = "a.b" ∧ j.progress = some ⟨3, 9⟩ := by
  have hplain : FileName.isPlain "a.b" = true := by decide
  have howns : (Config.withJobRoot ⟨"/"⟩).hitList.owns "a.b.count" = false := by decide
  have hlink : (Config.withJobRoot ⟨"/"⟩).store.HasNoLink countingOwner counting "a.b.count" := by
    intro here mode hl target
    obtain rfl := leads_counting.place_unique hl
    have hfile : counting.at? [.text "h", .text "a.b.count"] = some (.file twoCounts) := by
      decide +kernel
    exact fun hlinked => Object.noConfusion (Option.some.inj (hfile.symm.trans hlinked))
  have htold : progressOf (.withJobRoot ⟨"/"⟩) countingOwner "a.b" counting = some ⟨3, 9⟩ := by
    decide +kernel
  obtain ⟨hagree, -, hfolder⟩ :=
    progress_told_alike (.withJobRoot ⟨"/"⟩) countingOwner leads_counting.sound hplain howns hlink
  obtain ⟨l, hlist⟩ := (hfolder _ _ leads_counting).1 (by decide)
  exact ⟨leads_counting.sound, hplain, howns, hlink, htold, l, hlist,
    ((hagree l hlist).1 _).1 htold⟩

end Spool
end JobSpool
