/-
# A listing shows each job once

The jobs of a listing are the summaries of its groups, sorted into sections.  A summary is in
the section of a state exactly if the group of its stem makes it, with that state
(`mem_jobsIn_iff`), so a listing is known from the groups, stem by stem.  No stem is shown
twice, in one section or in two (`nodup_jobs`).

A progress file tells the same in two trees that have the same file there
(`read?_join_congr`), whatever else is different.
-/

import JobSpool.Lifecycle.Observe
import JobSpool.Proofs.Listings
import JobSpool.Proofs.Stems

namespace JobSpool

open Files (Tree Place File Object)

namespace JobFiles

/-- No files are no job. -/
theorem state?_eq_none_of_entries {s : JobFiles} (h : s.entries = []) : s.state? = none := by
  have hhas : ∀ a, s.has a = false := fun a => by simp [has, get?, h]
  simp [state?, hasAllResults, hasAnyResult, Artifact.results, hhas]

/-- All results are the table, the log and the copy of the input. -/
theorem hasAllResults_eq (s : JobFiles) :
    s.hasAllResults = (s.has .csv && s.has .log && s.has .jobCopy) := by
  simp [hasAllResults, Artifact.results, Bool.and_assoc]

/-- Any result is one of these. -/
theorem hasAnyResult_eq (s : JobFiles) :
    s.hasAnyResult = (s.has .csv || s.has .log || s.has .jobCopy) := by
  simp [hasAnyResult, Artifact.results, Bool.or_assoc]

/-- All results are some. -/
theorem hasAnyResult_of_all {s : JobFiles} (h : s.hasAllResults = true) :
    s.hasAnyResult = true := by
  rw [hasAllResults_eq, Bool.and_assoc, Bool.and_eq_true] at h
  rw [hasAnyResult_eq, h.1]
  rfl

/-- A stem without files is not one of the groups, and no job. -/
theorem group_mem_groups {entries : List Entry} {stem : String} {state : JobState}
    (h : (group entries stem).state? = some state) : group entries stem ∈ groups entries := by
  refine mem_groups.2 ⟨?_, rfl⟩
  by_contra hstem
  have hempty : (group entries stem).entries = [] := by
    rw [List.eq_nil_iff_forall_not_mem]
    intro e he
    exact hstem (mem_stems.2 ⟨e, mem_group.1 he⟩)
  rw [state?_eq_none_of_entries hempty] at h
  cases h

/-- **Only three states follow from files.** -/
theorem state?_cases {s : JobFiles} {state : JobState} (h : s.state? = some state) :
    state = .queued ∨ state = .running ∨ state = .completed := by
  unfold state? at h
  split at h
  · simp_all
  · split at h
    · simp_all
    · split at h
      · simp_all
      · split at h <;> simp_all

/-- Without a progress file the results decide, and then the input. -/
theorem state?_of_has_progress {s : JobFiles} (h : s.has .progress = false) :
    s.state? = if s.hasAllResults then some .completed
      else if s.hasAnyResult then some .running
      else if s.has .input then some .queued
      else none := by
  rw [state?, h]
  rfl

/-- A bare input is queued. -/
theorem state?_eq_queued {s : JobFiles} (hprogress : s.has .progress = false)
    (hresults : ∀ a ∈ Artifact.results, s.has a = false) (hinput : s.has .input = true) :
    s.state? = some .queued := by
  have hany : s.hasAnyResult = false := by
    rw [hasAnyResult, List.any_eq_false]
    intro a ha
    rw [hresults a ha]
    exact Bool.false_ne_true
  have hall : s.hasAllResults = false := by
    rw [hasAllResults, List.all_eq_false]
    exact ⟨.csv, by decide, by simp [hresults .csv (by decide)]⟩
  rw [state?_of_has_progress hprogress, hall, hany, hinput]
  rfl

/-- **What is queued has its input,** and neither progress nor a result. -/
theorem has_of_queued {s : JobFiles} (h : s.state? = some .queued) :
    s.has .progress = false ∧ s.hasAnyResult = false ∧ s.has .input = true := by
  cases hprogress : s.has .progress with
  | true =>
    rw [state?, hprogress] at h
    cases h
  | false =>
    rw [state?_of_has_progress hprogress] at h
    split at h
    · cases h
    · split at h
      · cases h
      · rename_i hany
        split at h
        · rename_i hinput
          exact ⟨rfl, Bool.not_eq_true _ ▸ hany, hinput⟩
        · cases h

/-- All results without progress are completed. -/
theorem state?_eq_completed {s : JobFiles} (hprogress : s.has .progress = false)
    (hresults : ∀ a ∈ Artifact.results, s.has a = true) : s.state? = some .completed := by
  have hall : s.hasAllResults = true := by
    rw [hasAllResults, List.all_eq_true]
    exact hresults
  rw [state?_of_has_progress hprogress, hall]
  rfl

/-- A completed job has all its results. -/
theorem hasAllResults_of_completed {s : JobFiles} (h : s.state? = some .completed) :
    s.hasAllResults = true := by
  by_contra hall
  rw [state?, if_neg hall] at h
  split at h
  · cases h
  · split at h
    · cases h
    · split at h <;> cases h

end JobFiles

namespace JobSummary

/-- **A job with all results links all of them,** in their order. -/
theorem links_ofFiles {p : Principal} {s : JobFiles} (hs : s.IsGroup)
    (h : s.hasAllResults = true) (state : JobState) (progress : Option Progress) :
    (ofFiles p s state progress).links
      = Artifact.results.map fun a => .ofFile p a (a.fileName s.stem) := by
  have hlink : ∀ a ∈ Artifact.results, ((s.get? a).map fun e =>
      ArtifactLink.ofFile p a e.fileName) = some (.ofFile p a (a.fileName s.stem)) := by
    intro a ha
    have hget : (s.get? a).isSome = true := List.all_eq_true.1 h a ha
    obtain ⟨e, he⟩ := Option.isSome_iff_exists.1 hget
    have hrecognized : a ≠ .unrecognized := by
      rintro rfl
      simp [Artifact.results] at ha
    obtain ⟨hmem, hart⟩ := (hs.get?_eq_some_iff hrecognized).1 he
    rw [he, Option.map_some, Entry.fileName_of_artifact hrecognized hart, hs.stem e hmem]
  rw [ofFiles, List.filterMap_congr hlink, List.filterMap_eq_map']

end JobSummary

namespace JobListing

/-- The jobs that a listing shows in the section of a state. -/
def jobsIn (l : JobListing) : JobState → List JobSummary
  | .queued => l.queued
  | .running => l.running
  | .completed => l.completed
  | .orphaned | .deleted => []

/-- The jobs that a listing shows. -/
def jobs (l : JobListing) : List JobSummary :=
  l.queued ++ l.running ++ l.completed

/-- A job is listed if it is in some section. -/
theorem mem_jobs_iff {l : JobListing} {j : JobSummary} :
    j ∈ l.jobs ↔ ∃ state, j ∈ l.jobsIn state := by
  constructor
  · intro h
    rw [jobs, List.mem_append, List.mem_append] at h
    rcases h with (h | h) | h
    · exact ⟨.queued, h⟩
    · exact ⟨.running, h⟩
    · exact ⟨.completed, h⟩
  · rintro ⟨state, h⟩
    cases state <;> simp_all [jobs, jobsIn]

/-- A section has the summaries with its state. -/
theorem mem_sorted_iff {state : JobState} {summaries : List JobSummary} {j : JobSummary} :
    j ∈ sorted state summaries ↔ j ∈ summaries ∧ j.state = state := by
  rw [sorted, (Text.perm_sortNaturalDescending _ _).mem_iff, List.mem_filter]
  simp

/-- What is listed are jobs, and the hit list. -/
theorem mem_summaries_iff {l : JobListing} {j : JobSummary} :
    j ∈ l.summaries ↔ j ∈ l.jobs ∨ l.hitList = some j := by
  rw [summaries, List.mem_append, Option.mem_toList]
  rfl

/-- **Nothing is found under a stem** if neither a job has it nor the hit list. -/
theorem find?_eq_none_iff {l : JobListing} {stem : String} : l.find? stem = none ↔
    (∀ j ∈ l.jobs, j.stem ≠ stem) ∧ ∀ j, l.hitList = some j → j.stem ≠ stem := by
  rw [find?, List.find?_eq_none]
  simp only [mem_summaries_iff, beq_iff_eq, or_imp, forall_and]

end JobListing

namespace Spool

variable {c : Config} {p : Principal} {t : Tree} {entries : List Entry}

/-- Files make a summary if they are a job, with the progress that is shown for it. -/
theorem summary?_eq_some_iff {s : JobFiles} {j : JobSummary} :
    summary? p t s = some j ↔
      ∃ state, s.state? = some state ∧ j = .ofFiles p s state (shownProgress t s state) := by
  rw [summary?, Option.map_eq_some_iff]
  exact exists_congr fun state => and_congr_right fun _ => eq_comm

/-- A summary has the stem of its files. -/
theorem stem_of_summary? {s : JobFiles} {j : JobSummary} (h : summary? p t s = some j) :
    j.stem = s.stem := by
  obtain ⟨state, -, rfl⟩ := summary?_eq_some_iff.1 h
  rfl

/-- The summaries of the groups of a listing. -/
def summaries (c : Config) (p : Principal) (t : Tree) (entries : List Entry) :
    List JobSummary :=
  (JobFiles.groups (jobEntries c entries)).filterMap (summary? p t)

/-- The summaries of a listing are those that the groups make, stem by stem. -/
theorem mem_summaries_iff {j : JobSummary} : j ∈ summaries c p t entries ↔
    summary? p t (JobFiles.group (jobEntries c entries) j.stem) = some j := by
  rw [summaries, List.mem_filterMap]
  constructor
  · rintro ⟨s, hs, hj⟩
    rw [stem_of_summary? hj, ← (JobFiles.mem_groups.1 hs).2]
    exact hj
  · intro hj
    obtain ⟨state, hstate, -⟩ := summary?_eq_some_iff.1 hj
    exact ⟨_, JobFiles.group_mem_groups hstate, hj⟩

/-- No stem has two summaries. -/
theorem nodup_summaries (c : Config) (p : Principal) (t : Tree) (entries : List Entry) :
    ((summaries c p t entries).map (·.stem)).Nodup := by
  have hstems : (JobFiles.stems (jobEntries c entries)).Pairwise (· ≠ ·) :=
    JobFiles.nodup_stems _
  rw [summaries, JobFiles.groups_eq, List.filterMap_map, List.Nodup, List.pairwise_map]
  refine hstems.filterMap _ fun stem stem' hne j hj j' hj' heq => hne ?_
  rw [stem_of_summary? hj, stem_of_summary? hj'] at heq
  exact heq

/-- **A section shows what the groups make,** stem by stem. -/
theorem mem_jobsIn_iff {state : JobState} {j : JobSummary} :
    j ∈ (listingOf c p t entries).jobsIn state ↔
      summary? p t (JobFiles.group (jobEntries c entries) j.stem) = some j ∧ j.state = state := by
  rw [← mem_summaries_iff]
  cases state with
  | queued => exact JobListing.mem_sorted_iff
  | running => exact JobListing.mem_sorted_iff
  | completed => exact JobListing.mem_sorted_iff
  | _ =>
    refine ⟨fun h => (List.not_mem_nil h).elim, ?_⟩
    rintro ⟨hj, hstate⟩
    rw [mem_summaries_iff, summary?_eq_some_iff] at hj
    obtain ⟨state, hs, hj⟩ := hj
    have hcases := JobFiles.state?_cases hs
    rw [hj] at hstate
    simp [JobSummary.ofFiles] at hstate
    simp [hstate] at hcases

/-- A stem is shown in the section of the state that its files have. -/
theorem exists_mem_jobsIn_iff {state : JobState} {stem : String} :
    (∃ j ∈ (listingOf c p t entries).jobsIn state, j.stem = stem) ↔
      (JobFiles.group (jobEntries c entries) stem).state? = some state := by
  constructor
  · rintro ⟨j, hj, rfl⟩
    obtain ⟨hsummary, rfl⟩ := mem_jobsIn_iff.1 hj
    obtain ⟨state, hstate, hj⟩ := summary?_eq_some_iff.1 hsummary
    rw [hstate, hj]
    rfl
  · intro h
    let group := JobFiles.group (jobEntries c entries) stem
    have hsummary : summary? p t group = some (.ofFiles p group state (shownProgress t group state))
      := summary?_eq_some_iff.2 ⟨state, h, rfl⟩
    exact ⟨.ofFiles p group state (shownProgress t group state),
      mem_jobsIn_iff.2 ⟨hsummary, rfl⟩, rfl⟩

/-- A stem is shown if its files have a state. -/
theorem exists_mem_jobs_iff {stem : String} :
    (∃ j ∈ (listingOf c p t entries).jobs, j.stem = stem) ↔
      (JobFiles.group (jobEntries c entries) stem).state?.isSome = true := by
  rw [Option.isSome_iff_exists]
  constructor
  · rintro ⟨j, hj, hstem⟩
    obtain ⟨state, hmem⟩ := JobListing.mem_jobs_iff.1 hj
    exact ⟨state, exists_mem_jobsIn_iff.1 ⟨j, hmem, hstem⟩⟩
  · rintro ⟨state, hstate⟩
    obtain ⟨j, hmem, hstem⟩ := exists_mem_jobsIn_iff.2 hstate
    exact ⟨j, JobListing.mem_jobs_iff.2 ⟨state, hmem⟩, hstem⟩

/-- **No stem is shown twice,** in one section or in two. -/
theorem nodup_jobs (c : Config) (p : Principal) (t : Tree) (entries : List Entry) :
    ((listingOf c p t entries).jobs.map (·.stem)).Nodup := by
  have hall := nodup_summaries c p t entries
  have hperm : (listingOf c p t entries).jobs.Perm (summaries c p t entries) := by
    rw [List.perm_ext_iff_of_nodup ?_ hall.of_map]
    · intro j
      rw [JobListing.mem_jobs_iff, mem_summaries_iff]
      constructor
      · rintro ⟨state, h⟩
        exact (mem_jobsIn_iff.1 h).1
      · intro h
        exact ⟨j.state, mem_jobsIn_iff.2 ⟨h, rfl⟩⟩
    · have hsection : ∀ state, (JobListing.sorted state (summaries c p t entries)).Nodup :=
        fun state => (Text.perm_sortNaturalDescending _ _).nodup_iff.2 (hall.of_map.filter _)
      have hdisjoint : ∀ {state state' : JobState}, state ≠ state' → ∀ j j',
          j ∈ JobListing.sorted state (summaries c p t entries) →
          j' ∈ JobListing.sorted state' (summaries c p t entries) → j ≠ j' := by
        rintro state state' hne j j' hj hj' rfl
        have hstate := (JobListing.mem_sorted_iff.1 hj).2
        exact hne (hstate.symm.trans (JobListing.mem_sorted_iff.1 hj').2)
      rw [JobListing.jobs, List.nodup_append, List.nodup_append]
      refine ⟨⟨hsection .queued, hsection .running, fun j hj j' hj' => ?_⟩, hsection .completed,
        fun j hj j' hj' => ?_⟩
      · exact hdisjoint (by decide) j j' hj hj'
      · rcases List.mem_append.1 hj with hj | hj
        · exact hdisjoint (by decide) j j' hj hj'
        · exact hdisjoint (by decide) j j' hj hj'
  exact (hperm.map _).nodup_iff.2 hall

/-- The jobs with the stem of one are that one. -/
theorem filter_jobs_eq_singleton {j : JobSummary} (hj : j ∈ (listingOf c p t entries).jobs) :
    (listingOf c p t entries).jobs.filter (·.stem == j.stem) = [j] := by
  have hnodup := nodup_jobs c p t entries
  have hperm : ((listingOf c p t entries).jobs.filter (·.stem == j.stem)).Perm [j] := by
    rw [List.perm_ext_iff_of_nodup (hnodup.of_map.filter _) (List.nodup_singleton j)]
    intro j'
    rw [List.mem_filter, List.mem_singleton, beq_iff_eq]
    constructor
    · rintro ⟨hj', hstem⟩
      exact List.inj_on_of_nodup_map hnodup hj' hj hstem
    · rintro rfl
      exact ⟨hj, rfl⟩
  exact List.perm_singleton.1 hperm

/-- A principal with a folder gets the listing that its files make. -/
theorem listJobs_eq {place : Place} {mode : Nat} (hl : t.Leads (c.store.folder p) place mode)
    (hentries : Store.list (c.store.folder p) t = .ok entries) :
    listJobs c p t = .ok (listingOf c p t entries) := by
  simp [listJobs, hl.isFolder, hentries]

/-- And it gets no other one. -/
theorem exists_entries_of_listJobs {place : Place} {mode : Nat}
    (hl : t.Leads (c.store.folder p) place mode) {l : JobListing} (h : listJobs c p t = .ok l) :
    ∃ entries, Store.list (c.store.folder p) t = .ok entries ∧ l = listingOf c p t entries := by
  cases hentries : Store.list (c.store.folder p) t with
  | error cause => simp [listJobs, hl.isFolder, hentries] at h
  | ok entries =>
    rw [listJobs_eq hl hentries] at h
    exact ⟨entries, rfl, (Except.ok.inj h).symm⟩

end Spool

/-! ### Reading one file -/

namespace Files.Tree

variable {t t' : Tree} {folder : Path} {place : Place} {mode : Nat} {name : String} {f f' : File}

/-- A file in a folder that may be searched is found under its name. -/
theorem find_join_of_maySearch (h : t.Leads folder place mode)
    (hf : t.fileAt? place name = some f) (hr : refusal? (folder.join name) = none)
    (hm : (Object.folder mode).maySearch = true) :
    t.find (folder.join name) = .ok (place ++ [.text name], .file f) := by
  rw [find, h.locate_file hf hr hm]

/-- **A path into a folder leads to the same in two trees** that have the same under its name,
unless that is a link. -/
theorem find_join_congr (h : t.Leads folder place mode) (h' : t'.Leads folder place mode)
    (hn : Path.IsStep name) (hsame : t'.at? (place ++ [.text name]) = t.at? (place ++ [.text name]))
    (hlink : ∀ target, t.at? (place ++ [.text name]) ≠ some (.link target)) :
    t'.find (folder.join name) = t.find (folder.join name) := by
  cases hr : refusal? (folder.join name) with
  | some fault => simp [find, locate, hr]
  | none =>
    obtain ⟨jump, hlocate⟩ := h.exists_locate hn hr .target
    obtain ⟨jump', hlocate'⟩ := h'.exists_locate hn hr .target
    have hwalk : walkWith jump' t' .target false place [.down name]
        = walkWith jump t .target false place [.down name] := by
      simp only [walkWith, hsame, h.maySearch, h'.maySearch]
      cases hat : t.at? (place ++ [.text name]) with
      | none => rfl
      | some o =>
        cases o with
        | file f => rfl
        | link target => exact absurd hat (hlink target)
        | folder mode' => rfl
    rw [find, find, hlocate, hlocate', hwalk]

/-- A path that leads to the same is read alike. -/
theorem readText_congr {path : Path} (h : t'.find path = t.find path) :
    t'.readText path = t.readText path := by
  rw [readText, readText, read, read, opened, opened, h]

end Files.Tree

namespace ProgressFile

/-- **What a reader gets is in a file,** as two counts in a text. -/
theorem read?_eq_some {t : Tree} {path : Path} {q : Progress} (h : read? t path = some q) :
    ∃ place f text, t.find path = .ok (place, .file f) ∧ Text.strict f.content = some text ∧
      Progress.ofText? text = some q := by
  unfold read? Tree.readText at h
  cases hread : t.read path with
  | error fault => simp [hread] at h
  | ok content =>
    obtain ⟨place, f, hfind, -, rfl⟩ := Tree.read_eq_ok_iff.1 hread
    cases htext : Text.strict f.content with
    | none => simp [hread, htext] at h
    | some text => exact ⟨place, f, text, hfind, htext, by simpa [hread, htext] using h⟩

/-- **A progress file tells the same in two trees** that have the same file. -/
theorem read?_join_congr {t t' : Tree} {folder : Path} {place : Place} {mode : Nat}
    {name : String} {f : File} (h : t.Leads folder place mode) (h' : t'.Leads folder place mode)
    (hf : t.fileAt? place name = some f) (hf' : t'.fileAt? place name = some f) :
    read? t' (folder.join name) = read? t (folder.join name) := by
  rw [Tree.fileAt?_eq_some_iff] at hf hf'
  have hfind := Tree.find_join_congr h h' (h.sound.isLegal hf).1 (hf'.trans hf.symm) (by simp [hf])
  rw [read?, read?, Tree.readText_congr hfind]

end ProgressFile
end JobSpool
