/-
# A listing classifies the whole folder

`list_jobs` and its `classify`: `SPEC_FULL.md`, 4.3, 5 (the mid-transition rule), 8 and E6.

What a listing shows of a stem is said here by the files of the folder alone: whether it is a job
(`IsJobStem`), in which section (`sectionOf`), with which links (`linksOf`) and which progress
(`toldProgress?`), together `shownJob`.  The listing itself goes another way.  It sorts the files
into groups, asks each group for its artifacts, and sorts the summaries into sections.
`summary?_group_eq` says that the group of a stem makes the summary that the files call for, and
`summary?_group_eq_none` that other stems make none.

Files of the hit list are in no group.  So folders that differ in such files only make the same
groups, in some order, and show the same jobs (`jobEntries_perm`).
-/

import JobSpool.Proofs.Rearrangements
import JobSpool.Proofs.Sweeps

namespace JobSpool

open Files (Tree Place File Object)

namespace Artifact

/-- Does an artifact make its stem a job, be it the only one? -/
def makesJob : Artifact → Bool
  | input | jobCopy | csv | log | progress => true
  | busy | lock | mx | unrecognized => false

end Artifact

namespace Files.Tree

/-- The text of a file right in a folder, if a reader gets to it and it is UTF-8. -/
def textOf? (t : Tree) (folder : Path) (name : String) (f : File) : Option String :=
  if t.isSearchable folder && (refusal? (folder.join name)).isNone && (Object.file f).mayRead then
    Text.strict f.content
  else none

end Files.Tree

/-- **A progress file tells** what its text tells, if a reader gets to it. -/
theorem ProgressFile.read?_join {t : Tree} {folder : Path} {place : Place} {mode : Nat}
    (hl : t.Leads folder place mode) {name : String} {f : File}
    (hf : t.fileAt? place name = some f) :
    read? t (folder.join name) = (t.textOf? folder name f).bind Progress.ofText? := by
  obtain ⟨hstep, -⟩ := hl.sound.isLegal (Tree.fileAt?_eq_some_iff.1 hf)
  rw [Tree.textOf?, hl.isSearchable, read?, Tree.readText, Tree.read, Tree.opened]
  cases hr : Tree.refusal? (folder.join name) with
  | some fault => simp [Tree.find, Tree.locate, hr]
  | none =>
    cases hsearch : (Object.folder mode).maySearch with
    | false => simp [Tree.find, hl.locate_of_not_maySearch hstep hr hsearch]
    | true =>
      rw [Tree.find_join_of_maySearch hl hf hr hsearch]
      dsimp only
      cases (Object.file f).mayRead with
      | false => rfl
      | true => cases htext : Text.strict f.content <;> simp [htext]

namespace JobFiles

/-- A group is a job if it has a progress file, a result or an input. -/
theorem isSome_state? (s : JobFiles) : s.state?.isSome
    = (s.has .progress || s.hasAllResults || s.hasAnyResult || s.has .input) := by
  unfold state?
  cases s.has .progress <;> cases s.hasAllResults <;> cases s.hasAnyResult <;>
    cases s.has .input <;> rfl

/-- **Files are a job if one of them makes them one.** -/
theorem state?_isSome_iff {s : JobFiles} :
    s.state?.isSome = true ↔ ∃ a : Artifact, a.makesJob = true ∧ s.has a = true := by
  rw [isSome_state?, Bool.or_eq_true, Bool.or_eq_true, Bool.or_eq_true]
  constructor
  · rintro (((hprogress | hall) | hany) | hinput)
    · exact ⟨.progress, rfl, hprogress⟩
    · exact ⟨.csv, rfl, List.all_eq_true.1 hall .csv (by decide)⟩
    · have hresults : ∀ a ∈ Artifact.results, a.makesJob = true := by decide
      obtain ⟨a, ha, hhas⟩ := List.any_eq_true.1 hany
      exact ⟨a, hresults a ha, hhas⟩
    · exact ⟨.input, rfl, hinput⟩
  · rintro ⟨a, ha, hhas⟩
    have hany : a ∈ Artifact.results → s.hasAnyResult = true := fun h =>
      List.any_eq_true.2 ⟨a, h, hhas⟩
    cases a with
    | input => exact Or.inr hhas
    | progress => exact Or.inl (Or.inl (Or.inl hhas))
    | csv | log | jobCopy => exact Or.inl (Or.inr (hany (by decide)))
    | _ => cases ha

end JobFiles

namespace Spool

variable {c : Config} {p : Principal} {t t' : Tree} {folder : Path} {place : Place} {mode : Nat}
  {entries entries' : List Entry} {stem : String}

/-! ### What the files call for -/

/-- Is a stem that of a job?  A file that is shown has it, that is not of the hit list and that
makes it a job. -/
def IsJobStem (c : Config) (t : Tree) (place : Place) (stem : String) : Prop :=
  ∃ name f, t.shownFile? place name = some f ∧ c.hitList.owns name = false ∧
    (FileName.split name).1 = stem ∧
      (Artifact.ofExtension (FileName.split name).2).makesJob = true

/-- Is the file there that a stem and an artifact name? -/
def hasFile (c : Config) (t : Tree) (place : Place) (stem : String) (a : Artifact) : Bool :=
  (jobFile? c t place stem a).isSome

/-- The section in which a job belongs. -/
def sectionOf (c : Config) (t : Tree) (place : Place) (stem : String) : JobState :=
  if hasFile c t place stem .progress then .running
  else if hasFile c t place stem .csv && hasFile c t place stem .log
      && hasFile c t place stem .jobCopy then .completed
  else if hasFile c t place stem .csv || hasFile c t place stem .log
      || hasFile c t place stem .jobCopy then .running
  else .queued

/-- The link to a result, if it is there. -/
def linkOf? (c : Config) (p : Principal) (t : Tree) (place : Place) (stem : String)
    (a : Artifact) : Option ArtifactLink :=
  if hasFile c t place stem a then
    some { kind := a, fileName := a.fileName stem, href := p.name ++ "/" ++ a.fileName stem }
  else none

/-- The links to the results that are there, in their order. -/
def linksOf (c : Config) (p : Principal) (t : Tree) (place : Place) (stem : String) :
    List ArtifactLink :=
  [Artifact.csv, .log, .jobCopy].filterMap (linkOf? c p t place stem)

/-- The progress that the progress file of a stem tells, if it is there, can be read, and holds
two counts. -/
def toldProgress? (c : Config) (t : Tree) (folder : Path) (place : Place) (stem : String) :
    Option Progress :=
  (jobFile? c t place stem .progress).bind fun f =>
    (t.textOf? folder (Artifact.progress.fileName stem) f).bind Progress.ofText?

/-- What is to be shown of a job. -/
def shownJob (c : Config) (p : Principal) (t : Tree) (place : Place) (stem : String) :
    JobSummary where
  stem := stem
  state := sectionOf c t place stem
  progress :=
    if sectionOf c t place stem = .running then
      toldProgress? c t (c.store.folder p) place stem
    else none
  links := linksOf c p t place stem

/-- What is to be shown of a job follows from its files. -/
theorem shownJob_congr
    (hsearch : t'.isSearchable (c.store.folder p) = t.isSearchable (c.store.folder p))
    (hfile : ∀ a, jobFile? c t' place stem a = jobFile? c t place stem a) :
    shownJob c p t' place stem = shownJob c p t place stem := by
  have hhas : ∀ a, hasFile c t' place stem a = hasFile c t place stem a := fun a => by
    rw [hasFile, hfile, hasFile]
  have hsection : sectionOf c t' place stem = sectionOf c t place stem := by
    simp only [sectionOf, hhas]
  have hlinks : linksOf c p t' place stem = linksOf c p t place stem := by
    rw [linksOf, linksOf]
    exact List.filterMap_congr fun a _ => by rw [linkOf?, hhas, linkOf?]
  have hprogress : toldProgress? c t' (c.store.folder p) place stem
      = toldProgress? c t (c.store.folder p) place stem := by
    simp only [toldProgress?, hfile, Tree.textOf?, hsearch]
  rw [shownJob, shownJob, hsection, hlinks, hprogress]

/-! ### What a group makes -/

section Listed

variable (hl : t.Leads folder place mode) (hentries : Store.list folder t = .ok entries)

include hl

/-- The stem of a job is not empty. -/
theorem ne_empty_of_isJobStem (h : IsJobStem c t place stem) : stem ≠ "" := by
  obtain ⟨name, f, hf, -, rfl, -⟩ := h
  refine FileName.split_fst_ne_empty ?_
  rintro rfl
  have hat := Tree.fileAt?_eq_some_iff.1 (Tree.shownFile?_eq_some_iff.1 hf).2
  exact (hl.sound.isLegal hat).1.ne_nil rfl

include hentries

/-- **A group has an artifact** if some file with its stem is that artifact. -/
theorem has_group_iff_exists {a : Artifact} :
    (JobFiles.group (jobEntries c entries) stem).has a = true ↔
      ∃ name f, t.shownFile? place name = some f ∧ c.hitList.owns name = false ∧
        (FileName.split name).1 = stem ∧ Artifact.ofExtension (FileName.split name).2 = a := by
  rw [JobFiles.has_iff]
  constructor
  · rintro ⟨e, hmem, hart⟩
    obtain ⟨hjob, hstem⟩ := JobFiles.mem_group.1 hmem
    obtain ⟨name, f, hf, howns, rfl⟩ := (mem_jobEntries_iff hl hentries).1 hjob
    exact ⟨name, f, hf, howns, hstem, hart⟩
  · rintro ⟨name, f, hf, howns, hstem, hart⟩
    have hjob := (mem_jobEntries_iff hl hentries).2 ⟨name, f, hf, howns, rfl⟩
    exact ⟨_, JobFiles.mem_group.2 ⟨hjob, hstem⟩, hart⟩

/-- **The stems of jobs are those whose groups have a state.** -/
theorem state?_group_isSome_iff :
    (JobFiles.group (jobEntries c entries) stem).state?.isSome = true ↔
      IsJobStem c t place stem := by
  rw [JobFiles.state?_isSome_iff]
  constructor
  · rintro ⟨a, hjob, hhas⟩
    obtain ⟨name, f, hf, howns, hstem, rfl⟩ := (has_group_iff_exists hl hentries).1 hhas
    exact ⟨name, f, hf, howns, hstem, hjob⟩
  · rintro ⟨name, f, hf, howns, hstem, hjob⟩
    exact ⟨_, hjob, (has_group_iff_exists hl hentries).2 ⟨name, f, hf, howns, hstem, rfl⟩⟩

/-- The group of a stem has an artifact exactly if the folder has its file. -/
theorem has_group_eq (hs : stem ≠ "") {a : Artifact} (ha : a ≠ .unrecognized) (hi : a ≠ .input) :
    (JobFiles.group (jobEntries c entries) stem).has a = hasFile c t place stem a := by
  rw [Bool.eq_iff_iff, has_group_iff hl hentries ha (Artifact.split_fileName hs ha hi), hasFile,
    Option.isSome_iff_exists]

/-- **The group of a job has the state of its section.** -/
theorem state?_group_eq (h : IsJobStem c t place stem) :
    (JobFiles.group (jobEntries c entries) stem).state? = some (sectionOf c t place stem) := by
  have hs := ne_empty_of_isJobStem hl h
  have hhas : ∀ a, a ≠ .unrecognized → a ≠ .input →
      (JobFiles.group (jobEntries c entries) stem).has a = hasFile c t place stem a :=
    fun _ => has_group_eq hl hentries hs
  have hsome := (state?_group_isSome_iff (c := c) hl hentries).2 h
  have hprogress := hhas .progress (by decide) (by decide)
  rw [JobFiles.state?, JobFiles.hasAllResults_eq, JobFiles.hasAnyResult_eq, hprogress,
    hhas .csv (by decide) (by decide), hhas .log (by decide) (by decide),
    hhas .jobCopy (by decide) (by decide)] at hsome ⊢
  unfold sectionOf
  split
  · rfl
  · split
    · rfl
    · split
      · rfl
      · split
        · rfl
        · simp_all

/-- **It links the results that are there.** -/
theorem links_group_eq (hs : stem ≠ "") (state : JobState) (progress : Option Progress) :
    (JobSummary.ofFiles p (JobFiles.group (jobEntries c entries) stem) state progress).links
      = linksOf c p t place stem := by
  have hkind : ∀ a ∈ Artifact.results, a ≠ .unrecognized ∧ a ≠ .input := by decide
  refine List.filterMap_congr fun a hresult => ?_
  obtain ⟨ha, hi⟩ := hkind a hresult
  rw [linkOf?, ← has_group_eq (c := c) hl hentries hs ha hi, JobFiles.has]
  cases hget : (JobFiles.group (jobEntries c entries) stem).get? a with
  | none => rfl
  | some e =>
    obtain ⟨f, -, rfl⟩ := (get?_group_eq_some_iff hl hentries ha
      (Artifact.split_fileName hs ha hi)).1 hget
    simp [ArtifactLink.ofFile]

/-- **It tells what its progress file tells.** -/
theorem progress_group_eq (hs : stem ≠ "") :
    shownProgress t (JobFiles.group (jobEntries c entries) stem) .running
      = toldProgress? c t folder place stem := by
  have hget := fun e => get?_group_eq_some_iff (c := c) hl hentries (a := .progress) (by decide)
    (Artifact.split_fileName hs (by decide) (by decide)) (e := e)
  rw [shownProgress, toldProgress?]
  cases hfile : jobFile? c t place stem .progress with
  | none =>
    cases hcase : (JobFiles.group (jobEntries c entries) stem).get? .progress with
    | none => rfl
    | some e =>
      obtain ⟨f, hf, -⟩ := (hget e).1 hcase
      rw [hfile] at hf
      cases hf
  | some f =>
    rw [(hget _).2 ⟨f, hfile, rfl⟩]
    have hat : t.fileAt? place (Artifact.progress.fileName stem) = some f := by
      rw [jobFile?] at hfile
      split at hfile
      · cases hfile
      · exact (Tree.shownFile?_eq_some_iff.1 hfile).2
    exact ProgressFile.read?_join hl hat

end Listed

section Shown

variable (hl : t.Leads (c.store.folder p) place mode)
  (hentries : Store.list (c.store.folder p) t = .ok entries)

include hl hentries

/-- **The group of a job makes what is to be shown of it,** -/
theorem summary?_group_eq (h : IsJobStem c t place stem) :
    summary? p t (JobFiles.group (jobEntries c entries) stem)
      = some (shownJob c p t place stem) := by
  have hs := ne_empty_of_isJobStem hl h
  rw [summary?, state?_group_eq hl hentries h, Option.map_some]
  congr 1
  have hlinks := links_group_eq (c := c) (p := p) hl hentries hs (sectionOf c t place stem)
    (shownProgress t (JobFiles.group (jobEntries c entries) stem) (sectionOf c t place stem))
  have hprogress : shownProgress t (JobFiles.group (jobEntries c entries) stem)
      (sectionOf c t place stem) = if sectionOf c t place stem = .running then
        toldProgress? c t (c.store.folder p) place stem else none := by
    cases sectionOf c t place stem with
    | running => exact progress_group_eq hl hentries hs
    | _ => rfl
  rw [shownJob, ← hlinks, ← hprogress]
  rfl

/-- **and no other group makes anything.** -/
theorem summary?_group_eq_none (h : ¬ IsJobStem c t place stem) :
    summary? p t (JobFiles.group (jobEntries c entries) stem) = none := by
  rw [← state?_group_isSome_iff hl hentries, Option.not_isSome_iff_eq_none] at h
  rw [summary?, h, Option.map_none]

/-- A job of the folder is in the section that its files call for, as they call for it. -/
theorem shownJob_mem_jobsIn (h : IsJobStem c t place stem) :
    shownJob c p t place stem
      ∈ (listingOf c p t entries).jobsIn (sectionOf c t place stem) :=
  mem_jobsIn_iff.2 ⟨summary?_group_eq hl hentries h, rfl⟩

/-- A stem that is no job is shown nowhere. -/
theorem filter_jobs_eq_nil (h : ¬ IsJobStem c t place stem) :
    (listingOf c p t entries).jobs.filter (·.stem == stem) = [] := by
  rw [List.filter_eq_nil_iff]
  intro j hj hstem
  rw [beq_iff_eq] at hstem
  subst hstem
  obtain ⟨state, hmem⟩ := JobListing.mem_jobs_iff.1 hj
  have hsummary := (mem_jobsIn_iff.1 hmem).1
  rw [summary?_group_eq_none hl hentries h] at hsummary
  cases hsummary

/-- A file of the hit list is listed with it if it is shown. -/
theorem any_hitListEntries {name : String} (howns : c.hitList.owns name = true) :
    ((hitListEntries c entries).any fun e => e.fileName == name)
      = (t.shownFile? place name).isSome := by
  rw [Bool.eq_iff_iff, List.any_eq_true, Option.isSome_iff_exists]
  constructor
  · rintro ⟨e, he, hname⟩
    obtain ⟨name', f, hf, rfl⟩ := (Store.mem_list_iff hl hentries).1 (List.mem_of_mem_filter he)
    rw [Entry.fileName_ofName, beq_iff_eq] at hname
    exact ⟨f, hname ▸ hf⟩
  · rintro ⟨f, hf⟩
    have hlisted := (Store.mem_list_iff hl hentries).2 ⟨_, f, hf, rfl⟩
    refine ⟨_, List.mem_filter.2 ⟨hlisted, ?_⟩, ?_⟩
    · rw [Entry.fileName_ofName]
      exact howns
    · rw [Entry.fileName_ofName, beq_self_eq_true]

/-- **The hit list is shown if its file is.** -/
theorem hitListSummary?_isSome_iff :
    (hitListSummary? c p (hitListEntries c entries)).isSome = true ↔
      ∃ f, t.shownFile? place c.hitList.fileName = some f := by
  have howned : c.hitList.owns c.hitList.fileName = true := by simp [HitListConfig.owns]
  rw [← Option.isSome_iff_exists, ← any_hitListEntries hl hentries howned, hitListSummary?]
  dsimp only
  split
  · simp_all
  · simp_all

end Shown

/-- A section is in descending natural order of its stems, and no stem is in it twice. -/
theorem pairwise_jobsIn (c : Config) (p : Principal) (t : Tree) (entries : List Entry)
    (state : JobState) : ((listingOf c p t entries).jobsIn state).Pairwise fun a b =>
      Text.naturalOrder a.stem b.stem = .gt := by
  have hsorted : ∀ state, (JobListing.sorted state (summaries c p t entries)).Pairwise fun a b =>
      Text.naturalOrder a.stem b.stem = .gt := fun state =>
    Text.pairwise_sortNaturalDescending
      ((nodup_summaries c p t entries).sublist (List.filter_sublist.map _))
  cases state with
  | queued => exact hsorted .queued
  | running => exact hsorted .running
  | completed => exact hsorted .completed
  | _ => exact .nil

/-! ### Folders that differ in the files of the hit list -/

/-- Do two trees show the same files in a folder, those of the hit list aside? -/
def SameJobFiles (c : Config) (place : Place) (t t' : Tree) : Prop :=
  ∀ name, c.hitList.owns name = false → t'.shownFile? place name = t.shownFile? place name

/-- **Then they have the same entries for jobs,** in some order. -/
theorem jobEntries_perm (hl : t.Leads folder place mode) (hl' : t'.Leads folder place mode)
    (hentries : Store.list folder t = .ok entries) (hentries' : Store.list folder t' = .ok entries')
    (h : SameJobFiles c place t t') : (jobEntries c entries).Perm (jobEntries c entries') := by
  rw [List.perm_ext_iff_of_nodup (nodup_jobEntries hl hentries).of_map
    (nodup_jobEntries hl' hentries').of_map]
  intro e
  have hknown : ∀ name f, t'.knownTime? folder name f = t.knownTime? folder name f := by
    intro name f
    rw [Tree.knownTime?, Tree.knownTime?, hl.isSearchable, hl'.isSearchable]
  rw [mem_jobEntries_iff hl hentries, mem_jobEntries_iff hl' hentries']
  simp only [hknown]
  refine exists_congr fun name => exists_congr fun f => ?_
  rw [and_left_comm, and_left_comm (b := c.hitList.owns name = false)]
  exact and_congr_right fun howns => by rw [h name howns]

/-- **and show the same jobs.** -/
theorem summaries_eq_of_sameJobFiles (hl : t.Leads folder place mode)
    (hl' : t'.Leads folder place mode) (hentries : Store.list folder t = .ok entries)
    (hentries' : Store.list folder t' = .ok entries') (h : SameJobFiles c place t t') :
    summaries c p t' entries' = summaries c p t entries := by
  refine summaries_congr (jobEntries_perm hl hl' hentries hentries' h)
    (nodup_jobEntries hl hentries) fun e he => ?_
  obtain ⟨name, f, hf, howns, rfl⟩ := (mem_jobEntries_iff hl hentries).1 he
  have hf' : t'.shownFile? place name = some f := (h name howns).trans hf
  exact ProgressFile.read?_join_congr hl hl' (Tree.shownFile?_eq_some_iff.1 hf).2
    (Tree.shownFile?_eq_some_iff.1 hf').2

/-- Nothing is listed of a folder that is missing. -/
theorem listJobs_of_not_isFolder (h : t.isFolder (c.store.folder p) = false) :
    listJobs c p t = .ok {} := by
  rw [listJobs, h]
  simp only [Bool.not_false, if_true]

/-- **A folder that has the same in it is listed alike.** -/
theorem listJobs_eq_of_same (hl : t.Leads (c.store.folder p) place mode)
    (hl' : t'.Leads (c.store.folder p) place mode)
    (hsame : ∀ name, t'.at? (place ++ [name]) = t.at? (place ++ [name])) :
    listJobs c p t' = listJobs c p t := by
  rw [listJobs, listJobs, hl.isFolder, hl'.isFolder]
  obtain ⟨cause, hlist, hlist'⟩ | ⟨entries, entries', hlist, hlist', hperm⟩ :=
    (Store.list_alike_of_same hl hl' hsame).eq_ok_or_error
  · rw [hlist, hlist']
  · have hsummaries : summaries c p t' entries' = summaries c p t entries :=
      summaries_eq_of_sameJobFiles hl hl' hlist hlist' fun name _ => by
        rw [Tree.shownFile?, Tree.shownFile?, Tree.fileAt?, Tree.fileAt?, hsame]
    have hhits : hitListSummary? c p (hitListEntries c entries')
        = hitListSummary? c p (hitListEntries c entries) :=
      hitListSummary?_congr (hperm.filter _)
    rw [hlist, hlist']
    exact congrArg Except.ok (congrArg₂ JobListing.ofSummaries hsummaries hhits)

/-- **A listing classifies the whole folder.**  Every stem of a job is shown once, in its section,
and no other stem is shown.  Each section is in strictly descending natural order.  The hit list
is shown if its file is there, and its files change nothing that is shown of a job. -/
theorem listing_classifies (c : Config) (p : Principal) (t : Tree) {place : Place} {mode : Nat}
    (hl : t.Leads (c.store.folder p) place mode)
    (hread : (Object.folder mode).mayRead = true) :
    ∃ l, listJobs c p t = .ok l ∧
      (∀ stem, IsJobStem c t place stem →
        l.jobs.filter (·.stem == stem) = [shownJob c p t place stem] ∧
          shownJob c p t place stem ∈ l.jobsIn (sectionOf c t place stem)) ∧
      (∀ stem, ¬ IsJobStem c t place stem → l.jobs.filter (·.stem == stem) = []) ∧
      (∀ state, (l.jobsIn state).Pairwise fun a b => Text.naturalOrder a.stem b.stem = .gt) ∧
      (l.hitList.isSome = true ↔ ∃ f, t.shownFile? place c.hitList.fileName = some f) ∧
      ∀ t' l', t'.Leads (c.store.folder p) place mode → SameJobFiles c place t t' →
        listJobs c p t' = .ok l' →
          l'.queued = l.queued ∧ l'.running = l.running ∧ l'.completed = l.completed := by
  have hentries := (Store.list_eq_ok_iff hl).2 ⟨hread, rfl⟩
  refine ⟨_, listJobs_eq hl hentries, fun stem h => ⟨?_, ?_⟩, fun stem h => ?_, ?_, ?_, ?_⟩
  · exact filter_jobs_eq_singleton
      (JobListing.mem_jobs_iff.2 ⟨_, shownJob_mem_jobsIn hl hentries h⟩)
  · exact shownJob_mem_jobsIn hl hentries h
  · exact filter_jobs_eq_nil hl hentries h
  · exact pairwise_jobsIn c p t _
  · exact hitListSummary?_isSome_iff hl hentries
  · intro t' l' hl' hsame hlist'
    have hentries' := (Store.list_eq_ok_iff hl').2 ⟨hread, rfl⟩
    rw [listJobs_eq hl' hentries'] at hlist'
    have hsummaries := summaries_eq_of_sameJobFiles (p := p) hl hl' hentries hentries' hsame
    obtain rfl := Except.ok.inj hlist'
    exact ⟨congrArg (JobListing.sorted .queued) hsummaries,
      congrArg (JobListing.sorted .running) hsummaries,
      congrArg (JobListing.sorted .completed) hsummaries⟩

/-! ### A folder with a hit list, scratch files and a stem with a dot -/

/-- The job `a.b` has one of its results, `c` waits, and `d` is no job. -/
def assorted : Tree where
  entries := [([.text "jobs"], .folder Files.folderMode),
    ([.text "jobs", .text "m"], .folder Files.folderMode)]
    ++ ["spamhaus.txt", "c.tmp", "a.b.csv", "c", "d.lock"].map fun name =>
      ([.text "jobs", .text "m", .text name], .file ⟨ByteArray.empty, Files.fileMode, 0⟩)
  home := []

/-- The owner of the folder. -/
def assortedOwner : Principal :=
  ⟨"m", by decide⟩

/-- A folder of all kinds of files: a lone result of a dotted stem is a running job. -/
theorem listing_classifies_assorted :
    assorted.Leads ⟨"/jobs/m"⟩ [.text "jobs", .text "m"] Files.folderMode ∧
      ∃ l, listJobs (.withJobRoot ⟨"/jobs"⟩) assortedOwner assorted = .ok l ∧
        l.jobs.filter (·.stem == "a.b")
          = [⟨"a.b", .running, none, [⟨.csv, "a.b.csv", "m/a.b.csv"⟩]⟩] ∧
        l.hitList.isSome = true := by
  have hl : assorted.Leads ⟨"/jobs/m"⟩ [.text "jobs", .text "m"] Files.folderMode :=
    ⟨by decide, rfl⟩
  obtain ⟨l, hlist, hjob, -, -, hhits, -⟩ := listing_classifies (.withJobRoot ⟨"/jobs"⟩)
    assortedOwner assorted hl (by decide)
  have hstem : IsJobStem (.withJobRoot ⟨"/jobs"⟩) assorted [.text "jobs", .text "m"] "a.b" :=
    ⟨"a.b.csv", _, rfl, by decide, by decide, by decide⟩
  have hshown : shownJob (.withJobRoot ⟨"/jobs"⟩) assortedOwner assorted
      [.text "jobs", .text "m"] "a.b"
        = ⟨"a.b", .running, none, [⟨.csv, "a.b.csv", "m/a.b.csv"⟩]⟩ := by decide
  exact ⟨hl, l, hlist, hshown ▸ (hjob "a.b" hstem).1, hhits.2 ⟨_, rfl⟩⟩

end Spool
end JobSpool
