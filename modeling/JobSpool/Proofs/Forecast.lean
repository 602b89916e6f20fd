/-
# The report of a sweep tells the next listing

`reconcile` and `list_jobs`: `SPEC_FULL.md`, 4.3 and E8.

A sweep takes files away from many jobs, not only from those that it reports as orphaned:
scratch files, and inputs behind results.  None of this moves a job that is not orphaned
(`state?_left`), because what goes from it never decides its state: its progress file is fresh
or missing, results stay, and an input only goes from a job that results already tell about.

So for a stem that is not reported the group of files after the sweep (`SweepPolicy.left`) makes
the same summary as the group before (`summary?_treeLeft`).  For a reported stem the report
classifies that very group, which is the one that is listed next.
-/

import JobSpool.Proofs.Reconcile
import JobSpool.Proofs.Summaries

namespace JobSpool

open Files (Tree Place File Object)

namespace SweepPolicy

variable {policy : SweepPolicy} {s : JobFiles}

/-- What a sweep leaves of a group. -/
def left (policy : SweepPolicy) (s : JobFiles) : JobFiles :=
  ⟨s.stem, policy.kept s⟩

/-- A sweep leaves a live job as it is. -/
theorem left_of_isLive (h : policy.isLive s = true) : policy.left s = s := by
  have hall : ∀ e ∈ s.entries, policy.keeps s e = true := fun e _ => by simp [keeps, h]
  rw [left, kept, List.filter_eq_self.2 hall]

/-- Of a job without a worker, a sweep leaves the artifacts that the policy keeps. -/
theorem get?_left (h : policy.isLive s = false) (a : Artifact) :
    (policy.left s).get? a = if policy.keepsArtifact a then s.get? a else none := by
  have hkeeps : ∀ e : Entry, e.artifact = a → policy.keeps s e = policy.keepsArtifact a := by
    rintro e rfl
    rw [keeps, h, Bool.false_or]
  rw [left, kept, JobFiles.get?, List.find?_filter, JobFiles.get?]
  cases hk : policy.keepsArtifact a with
  | true =>
    congr 1
    funext e
    by_cases he : e.artifact = a
    · simp [he, hkeeps e he, hk]
    · simp [he]
  | false =>
    simp only [Bool.false_eq_true, if_false, List.find?_eq_none]
    intro e _
    by_cases he : e.artifact = a
    · simp [hkeeps e he, hk]
    · simp [he]

/-- An artifact is left of such a job if it was there and the policy keeps it. -/
theorem has_left (h : policy.isLive s = false) (a : Artifact) :
    (policy.left s).has a = (policy.keepsArtifact a && s.has a) := by
  rw [JobFiles.has, get?_left h, JobFiles.has]
  cases policy.keepsArtifact a <;> simp

/-- Results stay. -/
theorem hasAllResults_left (h : policy.isLive s = false) :
    (policy.left s).hasAllResults = s.hasAllResults := by
  simp [JobFiles.hasAllResults, Artifact.results, has_left h, keepsArtifact]

/-- A sweep takes no results. -/
theorem hasAnyResult_left (h : policy.isLive s = false) :
    (policy.left s).hasAnyResult = s.hasAnyResult := by
  simp [JobFiles.hasAnyResult, Artifact.results, has_left h, keepsArtifact]

/-- **A job is orphaned** if its progress file is stale, or if it waits and nothing is held. -/
theorem state?_eq_orphaned_iff : policy.state? s = some .orphaned ↔
    (s.state? = some .running ∧ s.has .progress = true ∧ policy.isLive s = false) ∨
      (s.state? = some .queued ∧ policy.keepInputs = false) := by
  have hnot : s.state? ≠ some .orphaned := by
    unfold JobFiles.state?
    split
    · simp
    · split
      · simp
      · split
        · simp
        · split <;> simp
  rw [state?, isLive]
  cases hs : s.state? with
  | none => simp
  | some state =>
    cases state with
    | running => cases s.has .progress <;> cases s.progressIsStale _ _ <;> simp
    | queued => cases policy.keepInputs <;> simp
    | orphaned => exact absurd hs hnot
    | completed => simp
    | deleted => simp

/-- An orphaned job has no live worker. -/
theorem isLive_of_orphaned (h : policy.state? s = some .orphaned) : policy.isLive s = false := by
  rcases state?_eq_orphaned_iff.1 h with ⟨-, -, hlive⟩ | ⟨hqueued, -⟩
  · exact hlive
  · rw [isLive, (JobFiles.has_of_queued hqueued).1]
    rfl

/-- A job without a live worker that is not orphaned has no progress file. -/
theorem has_progress_of_not_isLive (h : policy.state? s ≠ some .orphaned)
    (hlive : policy.isLive s = false) : s.has .progress = false := by
  rw [Ne, state?_eq_orphaned_iff, not_or] at h
  by_contra hp
  rw [Bool.not_eq_false] at hp
  exact h.1 ⟨by simp [JobFiles.state?, hp], hp, hlive⟩

/-- **What a sweep takes from a job that is not orphaned does not move it.** -/
theorem state?_left (h : policy.state? s ≠ some .orphaned) :
    (policy.left s).state? = s.state? := by
  by_cases hlive : policy.isLive s = true
  · rw [left_of_isLive hlive]
  · rw [Bool.not_eq_true] at hlive
    have hp := has_progress_of_not_isLive h hlive
    rw [Ne, state?_eq_orphaned_iff, not_or] at h
    have hinput : s.hasAllResults = false → s.hasAnyResult = false → s.has .input = true →
        policy.keepInputs = true := by
      intro hall hany hin
      by_contra hkeep
      rw [Bool.not_eq_true] at hkeep
      exact h.2 ⟨by simp [JobFiles.state?, hp, hall, hany, hin], hkeep⟩
    simp only [JobFiles.state?, hasAllResults_left hlive, hasAnyResult_left hlive,
      has_left hlive, hp, Bool.and_false, Bool.false_eq_true, if_false]
    cases hall : s.hasAllResults with
    | true => rfl
    | false =>
      cases hany : s.hasAnyResult with
      | true => rfl
      | false =>
        cases hin : s.has .input with
        | false => simp
        | true => simp [keepsArtifact, hinput hall hany hin]

/-- What goes from a job without a live worker is linked nowhere. -/
theorem ofFiles_left (hlive : policy.isLive s = false) (p : Principal) (state : JobState)
    (progress : Option Progress) :
    JobSummary.ofFiles p (policy.left s) state progress
      = JobSummary.ofFiles p s state progress := by
  have hlinks : ∀ a ∈ Artifact.results, (policy.left s).get? a = s.get? a := by
    intro a ha
    rw [get?_left hlive, if_pos]
    rcases List.mem_cons.1 ha with rfl | ha
    · rfl
    · rcases List.mem_cons.1 ha with rfl | ha
      · rfl
      · rw [List.mem_singleton.1 ha]
        rfl
  rw [JobSummary.ofFiles, JobSummary.ofFiles, left]
  congr 1
  refine List.filterMap_congr fun a ha => ?_
  rw [← hlinks a ha]
  rfl

/-- The verdict is the state of what is left, as a listing has it. -/
theorem stateAfterSweep_eq (hs : s.IsGroup) :
    s.stateAfterSweep ((policy.removed s).map (·.fileName)) =
      match (policy.left s).state? with
      | none => .deleted
      | some .completed => .completed
      | some _ => .orphaned := by
  rw [JobFiles.stateAfterSweep, without_removed hs]
  rfl

end SweepPolicy

namespace Spool

variable {c : Config} {t : Tree} {folder : Path} {place : Place} {mode : Nat}
  {entries : List Entry} {policy : SweepPolicy} {p : Principal}

/-! ### The listing after a sweep -/

/-- The entries of a listing that a sweep leaves. -/
def entriesLeft (c : Config) (policy : SweepPolicy) (entries : List Entry) : List Entry :=
  entries.filter fun e => !(sweptFiles c policy entries).contains e

/-- The tree that a sweep leaves. -/
def treeLeft (c : Config) (policy : SweepPolicy) (place : Place) (entries : List Entry)
    (t : Tree) : Tree :=
  t.without ((sweptFiles c policy entries).map (Store.placeIn place))

/-- The folder is listed after the sweep with the files that the policy leaves. -/
theorem list_treeLeft (hl : t.Leads folder place mode)
    (hentries : Store.list folder t = .ok entries)
    (hfiles : t.AllFiles ((sweptFiles c policy entries).map (Store.placeIn place))) :
    Store.list folder (treeLeft c policy place entries t)
      = .ok (entriesLeft c policy entries) := by
  rw [treeLeft, Store.list_without hl hentries hfiles, entriesLeft]
  congr 1
  refine List.filter_congr fun e he => ?_
  rw [Bool.eq_iff_iff]
  simp only [Bool.not_eq_true', List.contains_eq_mem, decide_eq_false_iff_not,
    Store.placeIn_mem_map_iff hl hentries (fun _ => mem_of_mem_sweptFiles) he]

/-- **After the sweep** a stem has the files that the sweep leaves of its group. -/
theorem group_entriesLeft (c : Config) (policy : SweepPolicy) (entries : List Entry)
    (stem : String) :
    JobFiles.group (jobEntries c (entriesLeft c policy entries)) stem
      = policy.left (JobFiles.group (jobEntries c entries) stem) := by
  have hcomm : jobEntries c (entriesLeft c policy entries)
      = (jobEntries c entries).filter fun e => !(sweptFiles c policy entries).contains e := by
    rw [jobEntries, entriesLeft, List.filter_filter, jobEntries, List.filter_filter]
    exact List.filter_congr fun e _ => Bool.and_comm _ _
  rw [JobFiles.group, hcomm, SweepPolicy.left, SweepPolicy.kept, List.filter_filter]
  congr 1
  rw [JobFiles.group, List.filter_filter]
  refine List.filter_congr fun e he => ?_
  by_cases hstem : e.stem = stem
  · subst hstem
    have hkeeps : ((sweptFiles c policy entries).contains e = true) ↔
        policy.keeps (JobFiles.group (jobEntries c entries) e.stem) e = false := by
      rw [List.contains_iff_mem, mem_sweptFiles]
      exact and_iff_right he
    rw [Bool.eq_iff_iff]
    simp only [beq_self_eq_true, Bool.true_and, Bool.and_true, Bool.not_eq_true',
      ← Bool.not_eq_true, hkeeps]
    simp [JobFiles.group]
  · have hbeq : (e.stem == stem) = false := beq_eq_false_iff_ne.2 hstem
    simp [hbeq]

/-- The hit list is left alone. -/
theorem hitListEntries_entriesLeft (c : Config) (policy : SweepPolicy) (entries : List Entry) :
    hitListEntries c (entriesLeft c policy entries) = hitListEntries c entries := by
  rw [hitListEntries, entriesLeft, List.filter_filter, hitListEntries]
  refine List.filter_congr fun e he => ?_
  cases howns : c.hitList.owns e.fileName with
  | false => simp
  | true =>
    have hnot : e ∉ sweptFiles c policy entries := by
      intro h
      have := (mem_jobEntries.1 (mem_sweptFiles.1 h).1).2
      rw [howns] at this
      cases this
    simp [hnot]

/-- A job is reported as orphaned exactly if the policy finds it so, with the verdict on its
files. -/
theorem mem_orphaned_iff {o : OrphanedJob} :
    o ∈ (JobFiles.groups (jobEntries c entries)).flatMap policy.orphanedIn ↔
      policy.state? (JobFiles.group (jobEntries c entries) o.stem) = some .orphaned ∧
        o.stateAfter = (JobFiles.group (jobEntries c entries) o.stem).stateAfterSweep
          ((policy.removed (JobFiles.group (jobEntries c entries) o.stem)).map (·.fileName)) := by
  rw [List.mem_flatMap]
  constructor
  · rintro ⟨s, hs, ho⟩
    rw [SweepPolicy.orphanedIn] at ho
    split at ho
    · rename_i horphaned
      rw [List.mem_singleton] at ho
      subst ho
      rw [← (JobFiles.mem_groups.1 hs).2]
      exact ⟨horphaned, rfl⟩
    · cases ho
  · rintro ⟨horphaned, hafter⟩
    have hstate : ∃ state, (JobFiles.group (jobEntries c entries) o.stem).state? = some state := by
      rcases SweepPolicy.state?_eq_orphaned_iff.1 horphaned with ⟨h, -⟩ | ⟨h, -⟩
      · exact ⟨_, h⟩
      · exact ⟨_, h⟩
    obtain ⟨state, hstate⟩ := hstate
    refine ⟨_, JobFiles.group_mem_groups hstate, ?_⟩
    rw [SweepPolicy.orphanedIn, if_pos horphaned, List.mem_singleton, ← hafter]
    rfl

/-- The progress of a job with a live worker is what it was. -/
theorem shownProgress_treeLeft (hl : t.Leads folder place mode)
    (hentries : Store.list folder t = .ok entries)
    (hfiles : t.AllFiles ((sweptFiles c policy entries).map (Store.placeIn place)))
    {stem : String}
    (hlive : policy.isLive (JobFiles.group (jobEntries c entries) stem) = true)
    (state : JobState) :
    shownProgress (treeLeft c policy place entries t)
        (JobFiles.group (jobEntries c entries) stem) state
      = shownProgress t (JobFiles.group (jobEntries c entries) stem) state := by
  cases state with
  | running =>
    rw [shownProgress, shownProgress]
    cases hget : (JobFiles.group (jobEntries c entries) stem).get? .progress with
    | none => rw [Option.bind_none, Option.bind_none]
    | some e =>
      obtain ⟨hmem, hstem⟩ := JobFiles.mem_group.1 (List.mem_of_find?_eq_some hget)
      have hlisted := (mem_jobEntries.1 hmem).1
      -- The progress file stays, as everything of a live job does.
      have hstays : Store.placeIn place e ∉
          (sweptFiles c policy entries).map (Store.placeIn place) := by
        rw [Store.placeIn_mem_map_iff hl hentries (fun _ => mem_of_mem_sweptFiles) hlisted,
          mem_sweptFiles, hstem]
        rintro ⟨-, hgoes⟩
        rw [SweepPolicy.keeps, hlive] at hgoes
        cases hgoes
      obtain ⟨name, f, hf, rfl⟩ := (Store.mem_list_iff hl hentries).1 hlisted
      have hfile := (Tree.shownFile?_eq_some_iff.1 hf).2
      rw [Store.placeIn, Entry.fileName_ofName] at hstays
      have hfile' : (treeLeft c policy place entries t).fileAt? place name = some f := by
        rw [treeLeft, Tree.fileAt?_without, if_neg hstays]
        exact hfile
      exact ProgressFile.read?_join_congr hl (hl.without hfiles) hfile hfile'
  | _ => simp only [shownProgress]

/-- Without a progress file no progress is shown. -/
theorem shownProgress_eq_none {s : JobFiles} (h : s.has .progress = false) (t : Tree)
    (state : JobState) : shownProgress t s state = none := by
  rw [JobFiles.has, Option.isSome_eq_false_iff, Option.isNone_iff_eq_none] at h
  cases state <;> simp [shownProgress, h]

/-- Without a live worker there is no progress to show, and nothing else that counts goes. -/
theorem summary?_left_of_not_isLive {s : JobFiles} (h : policy.state? s ≠ some .orphaned)
    (hlive : policy.isLive s = false) (t t' : Tree) :
    summary? p t' (policy.left s) = summary? p t s := by
  have hp := SweepPolicy.has_progress_of_not_isLive h hlive
  have hp' : (policy.left s).has .progress = false := by
    rw [SweepPolicy.has_left hlive]
    rfl
  simp only [summary?, SweepPolicy.state?_left h, SweepPolicy.ofFiles_left hlive,
    shownProgress_eq_none hp, shownProgress_eq_none hp']

/-- **A stem that is not reported makes the same summary after the sweep.** -/
theorem summary?_treeLeft (hl : t.Leads folder place mode)
    (hentries : Store.list folder t = .ok entries)
    (hfiles : t.AllFiles ((sweptFiles c policy entries).map (Store.placeIn place)))
    {stem : String}
    (h : policy.state? (JobFiles.group (jobEntries c entries) stem) ≠ some .orphaned) :
    summary? p (treeLeft c policy place entries t)
        (policy.left (JobFiles.group (jobEntries c entries) stem))
      = summary? p t (JobFiles.group (jobEntries c entries) stem) := by
  cases hlive : policy.isLive (JobFiles.group (jobEntries c entries) stem) with
  | false => exact summary?_left_of_not_isLive h hlive _ _
  | true =>
    rw [SweepPolicy.left_of_isLive hlive]
    simp only [summary?, shownProgress_treeLeft hl hentries hfiles hlive]

/-! ### The report and the two listings -/

/-- Is the progress file of a stem there, and was it not written for longer than the limit, or at
a time that is not known? -/
def HasStaleProgress (c : Config) (now : Instant) (t : Tree) (folder : Path) (place : Place)
    (stem : String) : Prop :=
  ∃ f, jobFile? c t place stem .progress = some f ∧
    ∀ written, t.knownTime? folder (Artifact.progress.fileName stem) f = some written →
      (c.sweep.staleAfter : Int) < now - written

/-- A progress file is stale exactly if it is there and keeps nothing alive. -/
theorem hasStaleProgress_iff {now : Instant} {stem : String} :
    HasStaleProgress c now t folder place stem ↔
      (∃ f, jobFile? c t place stem .progress = some f) ∧
        ¬ IsLive c now t folder place stem := by
  constructor
  · rintro ⟨f, hf, hstale⟩
    refine ⟨⟨f, hf⟩, ?_⟩
    rintro ⟨f', written, hf', hknown, hage⟩
    rw [hf] at hf'
    cases hf'
    exact absurd hage (Int.not_le.2 (hstale written hknown))
  · rintro ⟨⟨f, hf⟩, hlive⟩
    refine ⟨f, hf, fun written hknown => ?_⟩
    by_contra hage
    exact hlive ⟨f, written, hf, hknown, Int.not_lt.1 hage⟩

section Listed

variable {now : Instant} {answer : Except SchedulerError PendingQueue}
  (hl : t.Leads folder place mode) (hentries : Store.list folder t = .ok entries)

include hl hentries

/-- A group that is a job has a stem that is not empty. -/
theorem ne_empty_of_state? {stem : String} {state : JobState}
    (h : (JobFiles.group (jobEntries c entries) stem).state? = some state) : stem ≠ "" := by
  obtain ⟨hstem, -⟩ := JobFiles.mem_groups.1 (JobFiles.group_mem_groups h)
  obtain ⟨e, he, rfl⟩ := JobFiles.mem_stems.1 hstem
  exact ne_empty_of_mem hl hentries (mem_jobEntries.1 he).1

/-- **Which jobs a sweep reports** shows in the listing before it. -/
theorem state?_group_eq_orphaned_iff (p : Principal) {stem : String} :
    (policyOf c now answer).state? (JobFiles.group (jobEntries c entries) stem)
        = some .orphaned ↔
      ((∃ j ∈ (listingOf c p t entries).running, j.stem = stem) ∧
        HasStaleProgress c now t folder place stem) ∨
      ((∃ j ∈ (listingOf c p t entries).queued, j.stem = stem) ∧ HoldsNothing answer) := by
  have hrunning : (∃ j ∈ (listingOf c p t entries).jobsIn .running, j.stem = stem) ↔
      (JobFiles.group (jobEntries c entries) stem).state? = some .running :=
    exists_mem_jobsIn_iff
  have hqueued : (∃ j ∈ (listingOf c p t entries).jobsIn .queued, j.stem = stem) ↔
      (JobFiles.group (jobEntries c entries) stem).state? = some .queued :=
    exists_mem_jobsIn_iff
  rw [SweepPolicy.state?_eq_orphaned_iff, ← hrunning, ← hqueued, ← keepsInputs_eq_false_iff,
    hasStaleProgress_iff]
  refine or_congr (and_congr_right fun hrun => ?_) Iff.rfl
  have hne := ne_empty_of_state? hl hentries (hrunning.1 hrun)
  have hsplit := Artifact.split_fileName hne (show Artifact.progress ≠ .unrecognized by decide)
    (by decide)
  rw [has_group_iff hl hentries (by decide) hsplit, ← Bool.not_eq_true,
    isLive_group_iff hl hentries hne]

end Listed

/-- Sorting the report does not change which stems are in it. -/
theorem stem_mem_orphaned_iff {stem : String} :
    stem ∈ (Text.sortNaturalDescending (·.stem)
        ((JobFiles.groups (jobEntries c entries)).flatMap policy.orphanedIn)).map (·.stem) ↔
      policy.state? (JobFiles.group (jobEntries c entries) stem) = some .orphaned := by
  rw [((Text.perm_sortNaturalDescending _ _).map _).mem_iff, List.mem_map]
  constructor
  · rintro ⟨o, ho, rfl⟩
    exact (mem_orphaned_iff.1 ho).1
  · intro h
    let group := JobFiles.group (jobEntries c entries) stem
    exact ⟨⟨stem, group.stateAfterSweep ((policy.removed group).map (·.fileName))⟩,
      mem_orphaned_iff.2 ⟨h, rfl⟩, rfl⟩

/-- No stem is reported as orphaned twice. -/
theorem nodup_orphaned (c : Config) (policy : SweepPolicy) (entries : List Entry) :
    (((JobFiles.groups (jobEntries c entries)).flatMap policy.orphanedIn).map (·.stem)).Nodup := by
  have hstem : ∀ s, ∀ stem ∈ (policy.orphanedIn s).map (·.stem), stem = s.stem := by
    intro s stem h
    rw [SweepPolicy.orphanedIn] at h
    split at h
    · exact List.mem_singleton.1 h
    · cases h
  rw [List.map_flatMap, JobFiles.groups_eq, List.flatMap_map, List.nodup_flatMap]
  refine ⟨fun stem _ => ?_, (JobFiles.nodup_stems _).imp fun hne stem h h' => ?_⟩
  · rw [SweepPolicy.orphanedIn]
    split
    · exact List.nodup_singleton _
    · exact List.nodup_nil
  · exact hne ((hstem _ _ h).symm.trans (hstem _ _ h'))

/-- What a listing shows of an orphaned job after the sweep. -/
def ShownAs (c : Config) (p : Principal) (t : Tree) (place : Place) (after : JobListing)
    (o : OrphanedJob) : Prop :=
  match o.stateAfter with
  | .deleted => ∀ j ∈ after.queued ++ after.running ++ after.completed, j.stem ≠ o.stem
  | .completed => ∃ j ∈ after.completed, j.stem = o.stem ∧
      j.links = Artifact.results.map fun a => .ofFile p a (a.fileName o.stem)
  | .orphaned =>
    ((∃ a ∈ Artifact.results, ∃ f, jobFile? c t place o.stem a = some f) →
      ∃ j ∈ after.running, j.stem = o.stem ∧ j.progress = none) ∧
    ((∀ a ∈ Artifact.results, jobFile? c t place o.stem a = none) →
      ∃ j ∈ after.queued, j.stem = o.stem)
  | .queued | .running => False

/-- **Without a progress file** a group is listed by its results, or else by its input. -/
theorem shownAs_of_group (hl : t.Leads folder place mode)
    (hentries : Store.list folder t = .ok entries) {o : OrphanedJob} (hne : o.stem ≠ "")
    (hp : (JobFiles.group (jobEntries c entries) o.stem).has .progress = false)
    (hafter : o.stateAfter =
      match (JobFiles.group (jobEntries c entries) o.stem).state? with
      | none => .deleted
      | some .completed => .completed
      | some _ => .orphaned) :
    ShownAs c p t place (listingOf c p t entries) o := by
  have hstate := JobFiles.state?_of_has_progress hp
  have hshown : ∀ state, (∃ j ∈ (listingOf c p t entries).jobsIn state, j.stem = o.stem) ↔
      (JobFiles.group (jobEntries c entries) o.stem).state? = some state :=
    fun state => exists_mem_jobsIn_iff
  have hany : (JobFiles.group (jobEntries c entries) o.stem).hasAnyResult = true ↔
      ∃ a ∈ Artifact.results, ∃ f, jobFile? c t place o.stem a = some f :=
    hasAnyResult_group_iff hl hentries hne
  -- Nothing that makes a job may be left, or an input, or some results, or all of them.
  cases hcase : (JobFiles.group (jobEntries c entries) o.stem).state? with
  | none =>
    rw [hcase] at hafter
    rw [ShownAs, hafter]
    intro j hj heq
    obtain ⟨state, hmem⟩ := JobListing.mem_jobs_iff.1 hj
    have hsome := (hshown state).1 ⟨j, hmem, heq⟩
    rw [hcase] at hsome
    cases hsome
  | some state =>
    have hexists := (hshown state).2 hcase
    rw [hcase] at hstate hafter
    rcases JobFiles.state?_cases hcase with rfl | rfl | rfl
    · rw [ShownAs, hafter]
      refine ⟨fun hresult => ?_, fun _ => hexists⟩
      exact Bool.noConfusion ((JobFiles.has_of_queued hcase).2.1.symm.trans (hany.2 hresult))
    · rw [ShownAs, hafter]
      refine ⟨fun _ => ?_, fun hnone => ?_⟩
      · obtain ⟨j, hj, hstem⟩ := hexists
        refine ⟨j, hj, hstem, ?_⟩
        obtain ⟨state, -, heq⟩ := summary?_eq_some_iff.1 (mem_jobsIn_iff.1 hj).1
        rw [hstem] at heq
        rw [heq]
        exact shownProgress_eq_none hp _ _
      · have hnot : ¬ ∃ a ∈ Artifact.results, ∃ f, jobFile? c t place o.stem a = some f := by
          rintro ⟨a, ha, f, hf⟩
          rw [hnone a ha] at hf
          cases hf
        rw [← hany] at hnot
        rw [if_neg hnot] at hstate
        split at hstate
        · cases hstate
        · split at hstate <;> cases hstate
    · rw [ShownAs, hafter]
      obtain ⟨j, hj, hstem⟩ := hexists
      refine ⟨j, hj, hstem, ?_⟩
      obtain ⟨state, -, heq⟩ := summary?_eq_some_iff.1 (mem_jobsIn_iff.1 hj).1
      rw [hstem] at heq
      rw [heq]
      exact JobSummary.links_ofFiles (JobFiles.isGroup_group (nodup_jobEntries hl hentries) _)
        (JobFiles.hasAllResults_of_completed hcase) _ _

/-- **What is left of an orphaned job** is listed as the report says. -/
theorem shownAs_of_orphaned (hl : t.Leads folder place mode)
    (hentries : Store.list folder t = .ok entries)
    (hfiles : t.AllFiles ((sweptFiles c policy entries).map (Store.placeIn place)))
    {o : OrphanedJob}
    (ho : o ∈ (JobFiles.groups (jobEntries c entries)).flatMap policy.orphanedIn) :
    ShownAs c p (treeLeft c policy place entries t) place
      (listingOf c p (treeLeft c policy place entries t) (entriesLeft c policy entries)) o := by
  obtain ⟨horphaned, hafter⟩ := mem_orphaned_iff.1 ho
  have hne : o.stem ≠ "" := by
    rcases SweepPolicy.state?_eq_orphaned_iff.1 horphaned with ⟨h, -⟩ | ⟨h, -⟩
    · exact ne_empty_of_state? hl hentries h
    · exact ne_empty_of_state? hl hentries h
  have hp : (policy.left (JobFiles.group (jobEntries c entries) o.stem)).has .progress
      = false := by
    rw [SweepPolicy.has_left (SweepPolicy.isLive_of_orphaned horphaned)]
    rfl
  rw [SweepPolicy.stateAfterSweep_eq (JobFiles.isGroup_group (nodup_jobEntries hl hentries) _)]
    at hafter
  rw [← group_entriesLeft] at hp hafter
  exact shownAs_of_group (hl.without hfiles) (list_treeLeft hl hentries hfiles) hne hp hafter

section Reconciled

variable {σ : Type} [Scheduler σ]

/-- **The report of a sweep tells the next listing.**  A stem is reported if it was listed as
running with a stale progress file, or as queued while nothing is held.  Every other stem has
the same summary in both listings, in the same section, and so has the hit list.  What the
report says of a stem is what the next listing shows of it. -/
theorem reconcile_forecasts_listing (c : Config) (now : Instant) (p : Principal) (s : Spool σ)
    {place : Place} {mode : Nat} (hl : s.files.Leads (c.store.folder p) place mode)
    (hread : (Object.folder mode).mayRead = true)
    (hremove : SweptAreRemovable c now p s place) :
    ∃ report s' before after, reconcile c now p s = (.ok report, s') ∧
      listJobs c p s.files = .ok before ∧ listJobs c p s'.files = .ok after ∧
      (∀ stem, stem ∈ report.orphaned.map (·.stem) ↔
        ((∃ j ∈ before.running, j.stem = stem) ∧
          HasStaleProgress c now s.files (c.store.folder p) place stem) ∨
        ((∃ j ∈ before.queued, j.stem = stem) ∧ HoldsNothing (pendingAnswer now s))) ∧
      (∀ j : JobSummary, j.stem ∉ report.orphaned.map (·.stem) →
        (j ∈ after.queued ↔ j ∈ before.queued) ∧ (j ∈ after.running ↔ j ∈ before.running) ∧
          (j ∈ after.completed ↔ j ∈ before.completed)) ∧
      after.hitList = before.hitList ∧
      (∀ o ∈ report.orphaned, ShownAs c p s'.files place after o) ∧
      (report.orphaned.map (·.stem)).Nodup ∧
      report.orphaned.Pairwise (fun a b => Text.naturalOrder a.stem b.stem = .gt) := by
  obtain ⟨entries, hentries⟩ : ∃ entries, Store.list (c.store.folder p) s.files = .ok entries :=
    ⟨_, (Store.list_eq_ok_iff hl).2 ⟨hread, rfl⟩⟩
  have hfiles := (removable_sweptFiles hl hentries hremove).allFiles
  have hnodup := nodup_orphaned c (policyFor c now s) entries
  refine ⟨_, _, _, _, reconcile_eq hl hentries hremove, listJobs_eq hl hentries,
    listJobs_eq (hl.without hfiles) (list_treeLeft hl hentries hfiles), ?_, ?_, ?_, ?_, ?_, ?_⟩
  -- Who is reported.
  · intro stem
    rw [stem_mem_orphaned_iff]
    exact state?_group_eq_orphaned_iff hl hentries p
  -- Whoever is not, is shown as before.
  · intro j hj
    rw [stem_mem_orphaned_iff] at hj
    have hsame : ∀ state, j ∈ (listingOf c p (treeLeft c (policyFor c now s) place entries s.files)
        (entriesLeft c (policyFor c now s) entries)).jobsIn state ↔
          j ∈ (listingOf c p s.files entries).jobsIn state := by
      intro state
      rw [mem_jobsIn_iff, mem_jobsIn_iff, group_entriesLeft,
        summary?_treeLeft hl hentries hfiles hj]
    exact ⟨hsame .queued, hsame .running, hsame .completed⟩
  -- So is the hit list.
  · exact congrArg (hitListSummary? c p) (hitListEntries_entriesLeft c _ entries)
  -- Whoever is, is shown as the report says.
  · intro o ho
    rw [(Text.perm_sortNaturalDescending _ _).mem_iff] at ho
    exact shownAs_of_orphaned hl hentries hfiles ho
  · exact ((Text.perm_sortNaturalDescending _ _).map _).nodup_iff.2 hnodup
  · exact Text.pairwise_sortNaturalDescending hnodup

end Reconciled

/-- A folder with a job whose progress file is stale: its sweep reports it as orphaned. -/
theorem reconcile_forecasts_listing_leftOver :
    SweptAreRemovable (.withJobRoot ⟨"/jobs"⟩) 1000000000000 leftOverOwner leftOver
        [.text "jobs", .text "u"] ∧
      ∃ report s', reconcile (.withJobRoot ⟨"/jobs"⟩) 1000000000000 leftOverOwner leftOver
          = (.ok report, s') ∧ "a" ∈ report.orphaned.map (·.stem) := by
  refine ⟨sweptAreRemovable_leftOver _, ?_⟩
  obtain ⟨report, s', before, -, h, hbefore, -, horphaned, -⟩ := reconcile_forecasts_listing
    (.withJobRoot ⟨"/jobs"⟩) 1000000000000 leftOverOwner leftOver leads_leftOver (by decide)
      (sweptAreRemovable_leftOver _)
  refine ⟨report, s', h, (horphaned "a").2 (Or.inl ⟨?_, ?_⟩)⟩
  · have hentries := (Store.list_eq_ok_iff leads_leftOver).2 ⟨by decide, rfl⟩
    have hlisting : listJobs (.withJobRoot ⟨"/jobs"⟩) leftOverOwner leftOver.files = _ :=
      listJobs_eq leads_leftOver hentries
    rw [hbefore] at hlisting
    cases hlisting
    show ∃ j ∈ JobListing.jobsIn _ .running, j.stem = "a"
    exact exists_mem_jobsIn_iff.2 rfl
  · exact hasStaleProgress_iff.2 ⟨⟨_, rfl⟩, not_isLive_leftOver⟩

end Spool
end JobSpool
