/-
# What a sweep removes, and what it accounts for

`IsSwept` says of a file which ones a sweep removes, by the files of the folder alone: a file
that is shown, that is not of the hit list, whose stem has no live worker (`IsLive`), and that
is a progress file, or unrecognized, or an input while nothing is held.  The sweep itself goes
another way.  It sorts the files into groups, asks of each group whether its progress file is
fresh, and filters.  `mem_sweptFiles_iff` says that both ways lead to the same files.

Groups are swept one after another.  What one of them adds to the report, and which places it
clears, does not depend on the others (`sweepGroups_eq`), so the report of the run is the
concatenation over all groups (`fullReport`); and each file is in one group, and there either
among those that go or among those that stay (`swept_append_kept_perm`).
-/

import JobSpool.Lifecycle.Reconcile
import JobSpool.Proofs.Listings
import JobSpool.Proofs.Stems

namespace JobSpool

open Files (Tree Place File Object)

namespace SweepPolicy

variable {policy : SweepPolicy} {s : JobFiles}

/-- What a sweep reports about a group: the orphaned job that it is, if it is one. -/
def orphanedIn (policy : SweepPolicy) (s : JobFiles) : List OrphanedJob :=
  if policy.state? s = some .orphaned then
    [⟨s.stem, s.stateAfterSweep ((policy.removed s).map (·.fileName))⟩]
  else []

/-- Every file of a group goes or stays, and none does both. -/
theorem removed_append_kept_perm (policy : SweepPolicy) (s : JobFiles) :
    (policy.removed s ++ policy.kept s).Perm s.entries := by
  have h := List.filter_append_perm (fun e => !policy.keeps s e) s.entries
  simpa [removed, kept] using h

/-- A file goes if it is in the group, and the policy does not keep it. -/
theorem mem_removed {e : Entry} :
    e ∈ policy.removed s ↔ e ∈ s.entries ∧ policy.keeps s e = false := by
  simp [removed]

/-- **Without the files that go,** a group has the files that stay. -/
theorem without_removed (hs : s.IsGroup) :
    s.without ((policy.removed s).map (·.fileName)) = ⟨s.stem, policy.kept s⟩ := by
  rw [JobFiles.without, kept]
  congr 1
  refine List.filter_congr fun e he => ?_
  rw [Bool.eq_iff_iff]
  simp only [Bool.not_eq_true', List.contains_eq_mem, decide_eq_false_iff_not, List.mem_map,
    mem_removed]
  constructor
  · intro h
    by_contra hk
    rw [Bool.not_eq_true] at hk
    exact h ⟨e, ⟨he, hk⟩, rfl⟩
  · rintro hk ⟨e', ⟨he', hk'⟩, hname⟩
    rw [List.inj_on_of_nodup_map hs.distinct he' he hname, hk] at hk'
    cases hk'

end SweepPolicy

namespace Spool

variable {c : Config} {t : Tree} {folder : Path} {place : Place} {mode : Nat}
  {entries : List Entry} {policy : SweepPolicy}

/-! ### The run over the groups -/

/-- The report of a sweep over groups after another report, when no removal fails. -/
def fullReport (policy : SweepPolicy) (report : SweepReport) (gs : List JobFiles) :
    SweepReport where
  removed := report.removed ++ (gs.flatMap policy.removed).map (·.fileName)
  kept := report.kept ++ (gs.flatMap policy.kept).map (·.fileName)
  orphaned := report.orphaned ++ gs.flatMap policy.orphanedIn
  failures := report.failures

/-- **Sweeping one group** removes its files that go. -/
theorem sweepGroup_eq (hl : t.Leads folder place mode) {s : JobFiles}
    (h : Store.Removable t folder place (policy.removed s)) (report : SweepReport) :
    sweepGroup policy report s t = (fullReport policy report [s],
      t.without ((policy.removed s).map (Store.placeIn place))) := by
  rw [sweepGroup, Store.removeEntries_eq hl h]
  simp [fullReport, SweepReport.absorb, SweepPolicy.orphanedIn]

/-- **Sweeping groups one after another** removes the files that go from all of them. -/
theorem sweepGroups_eq (hl : t.Leads folder place mode) {gs : List JobFiles}
    (h : Store.Removable t folder place (gs.flatMap policy.removed)) (report : SweepReport) :
    sweepGroups policy report gs t = (fullReport policy report gs,
      t.without ((gs.flatMap policy.removed).map (Store.placeIn place))) := by
  induction gs generalizing report t with
  | nil => simp [sweepGroups, fullReport, Tree.without_nil]
  | cons s gs ih =>
    rw [List.flatMap_cons] at h
    rw [sweepGroups, sweepGroup_eq hl h.left]
    dsimp only
    rw [ih (hl.without h.left.allFiles) (h.without hl), Tree.without_append]
    simp [fullReport, List.append_assoc]

/-! ### The files of a listing that go, and those that stay -/

/-- The files of a listing that a sweep removes. -/
def sweptFiles (c : Config) (policy : SweepPolicy) (entries : List Entry) : List Entry :=
  (JobFiles.groups (jobEntries c entries)).flatMap policy.removed

/-- The files of a listing that a sweep leaves, of the hit list or not. -/
def keptFiles (c : Config) (policy : SweepPolicy) (entries : List Entry) : List Entry :=
  hitListEntries c entries ++ (JobFiles.groups (jobEntries c entries)).flatMap policy.kept

/-- **Every file of a listing goes or stays,** and none does both. -/
theorem swept_append_kept_perm (c : Config) (policy : SweepPolicy) (h : entries.Nodup) :
    (sweptFiles c policy entries ++ keptFiles c policy entries).Perm entries := by
  have hgroups : (sweptFiles c policy entries
      ++ (JobFiles.groups (jobEntries c entries)).flatMap policy.kept).Perm
        (jobEntries c entries) := by
    refine (List.flatMap_append_perm _ _ _).trans (List.Perm.trans ?_
      (JobFiles.flatMap_groups_perm (h.filter _)))
    exact List.Perm.flatMap_left _ fun s _ => policy.removed_append_kept_perm s
  have hparts := List.filter_append_perm (fun e : Entry => c.hitList.owns e.fileName) entries
  refine List.Perm.trans ?_ hparts
  rw [keptFiles, ← List.append_assoc]
  refine (List.perm_append_comm.append_right _).trans ?_
  rw [List.append_assoc]
  exact hgroups.append_left _

/-- **No file is removed twice.** -/
theorem nodup_sweptFiles (c : Config) (policy : SweepPolicy)
    (h : (entries.map (·.fileName)).Nodup) :
    ((sweptFiles c policy entries).map (·.fileName)).Nodup := by
  have hperm := (swept_append_kept_perm c policy h.of_map).map (fun e : Entry => e.fileName)
  rw [← hperm.nodup_iff, List.map_append] at h
  exact h.of_append_left

/-- Two runs of removals are one. -/
theorem removeEntries_append (es es' : List Entry) (t : Tree) :
    (Store.removeEntries (es ++ es') t).2
      = (Store.removeEntries es' (Store.removeEntries es t).2).2 := by
  induction es generalizing t with
  | nil => rfl
  | cons e es ih => exact ih (Store.removeEntry e t).2

/-- **A sweep removes files one after another,** whatever becomes of each of them. -/
theorem files_sweepGroups (policy : SweepPolicy) (report : SweepReport) (gs : List JobFiles)
    (t : Tree) : (sweepGroups policy report gs t).2
      = (Store.removeEntries (gs.flatMap policy.removed) t).2 := by
  induction gs generalizing report t with
  | nil => rfl
  | cons s gs ih =>
    rw [List.flatMap_cons, removeEntries_append]
    exact ih _ (Store.removeEntries (policy.removed s) t).2

/-- A sweep leaves the files that are left by one run of removals. -/
theorem files_sweepEntries (c : Config) (policy : SweepPolicy) (entries : List Entry) (t : Tree) :
    (sweepEntries c policy entries t).2
      = (Store.removeEntries (sweptFiles c policy entries) t).2 :=
  files_sweepGroups policy _ _ t

/-- **Sweeping the files of a listing** removes those that go. -/
theorem sweepEntries_eq (hl : t.Leads folder place mode)
    (h : Store.Removable t folder place (sweptFiles c policy entries)) :
    sweepEntries c policy entries t =
      ({ removed := Text.sortNames ((sweptFiles c policy entries).map (·.fileName))
         kept := Text.sortNames ((keptFiles c policy entries).map (·.fileName))
         orphaned := Text.sortNaturalDescending (·.stem)
          ((JobFiles.groups (jobEntries c entries)).flatMap policy.orphanedIn) },
        t.without ((sweptFiles c policy entries).map (Store.placeIn place))) := by
  rw [sweepEntries, sweepGroups_eq hl h]
  simp [arranged, fullReport, sweptFiles, keptFiles]

/-- A file of a job is swept if the policy does not keep it in the group of its stem. -/
theorem mem_sweptFiles {e : Entry} :
    e ∈ sweptFiles c policy entries ↔
      e ∈ jobEntries c entries ∧
        policy.keeps (JobFiles.group (jobEntries c entries) e.stem) e = false := by
  rw [sweptFiles, List.mem_flatMap]
  constructor
  · rintro ⟨s, hs, he⟩
    rw [JobFiles.mem_groups] at hs
    rw [hs.2, SweepPolicy.mem_removed, JobFiles.mem_group] at he
    obtain ⟨⟨hmem, hstem⟩, hk⟩ := he
    exact ⟨hmem, hstem ▸ hk⟩
  · rintro ⟨hmem, hk⟩
    refine ⟨JobFiles.group (jobEntries c entries) e.stem,
      JobFiles.mem_groups.2 ⟨JobFiles.mem_stems.2 ⟨e, hmem, rfl⟩, rfl⟩, ?_⟩
    exact SweepPolicy.mem_removed.2 ⟨JobFiles.mem_group.2 ⟨hmem, rfl⟩, hk⟩

/-- The files of jobs are those that are not of the hit list. -/
theorem mem_jobEntries {e : Entry} :
    e ∈ jobEntries c entries ↔ e ∈ entries ∧ c.hitList.owns e.fileName = false := by
  simp [jobEntries]

/-- What is swept was listed. -/
theorem mem_of_mem_sweptFiles {e : Entry} (h : e ∈ sweptFiles c policy entries) : e ∈ entries :=
  (mem_jobEntries.1 (mem_sweptFiles.1 h).1).1

/-! ### By the files of the folder alone -/

/-- Did the scheduler answer that it holds nothing? -/
def HoldsNothing (answer : Except SchedulerError PendingQueue) : Prop :=
  ∃ queue, answer = .ok queue ∧ queue.entries = []

/-- Inputs go only if the scheduler has answered, and holds nothing. -/
theorem keepsInputs_eq_false_iff {answer : Except SchedulerError PendingQueue} :
    keepsInputs answer = false ↔ HoldsNothing answer := by
  cases answer with
  | error e => simp [keepsInputs, HoldsNothing]
  | ok queue => simp [keepsInputs, HoldsNothing, PendingQueue.isEmpty]

/-- The file that a stem and an artifact name, if it is shown and not of the hit list. -/
def jobFile? (c : Config) (t : Tree) (place : Place) (stem : String) (a : Artifact) :
    Option File :=
  if c.hitList.owns (a.fileName stem) then none else t.shownFile? place (a.fileName stem)

/-- Does a stem have a live worker?  Its progress file was written at a known time, which is not
longer ago than the limit, or is still to come. -/
def IsLive (c : Config) (now : Instant) (t : Tree) (folder : Path) (place : Place)
    (stem : String) : Prop :=
  ∃ f written, jobFile? c t place stem .progress = some f ∧
    t.knownTime? folder (Artifact.progress.fileName stem) f = some written ∧
      now - written ≤ (c.sweep.staleAfter : Int)

/-- Is the file under a name one that a sweep removes? -/
def IsSwept (c : Config) (now : Instant) (answer : Except SchedulerError PendingQueue) (t : Tree)
    (folder : Path) (place : Place) (name : String) : Prop :=
  (∃ f, t.shownFile? place name = some f) ∧ c.hitList.owns name = false ∧
    ¬ IsLive c now t folder place (FileName.split name).1 ∧
      match Artifact.ofExtension (FileName.split name).2 with
      | .progress | .unrecognized => True
      | .input => HoldsNothing answer
      | .csv | .log | .jobCopy | .busy | .lock | .mx => False

/-- By what a sweep decides after an answer of the scheduler. -/
def policyOf (c : Config) (now : Instant) (answer : Except SchedulerError PendingQueue) :
    SweepPolicy :=
  { now, staleAfter := c.sweep.staleAfter, keepInputs := keepsInputs answer }

/-- A file is fresh if it is known when it was written, and that is not too long ago. -/
theorem isStale_eq_false_iff {now : Instant} {limit : Nat} {e : Entry} :
    JobFiles.isStale now limit e = false ↔
      ∃ written, e.modified = some written ∧ now - written ≤ (limit : Int) := by
  rw [JobFiles.isStale]
  cases e.modified with
  | none => simp
  | some written =>
    rw [decide_eq_false_iff_not, Int.not_lt]
    simp

section Listed

variable {now : Instant} {answer : Except SchedulerError PendingQueue}
  (hl : t.Leads folder place mode) (hentries : Store.list folder t = .ok entries)

include hl hentries

/-- The files of jobs have different names. -/
theorem nodup_jobEntries : ((jobEntries c entries).map (·.fileName)).Nodup :=
  (Store.nodup_list hl hentries).sublist (List.filter_sublist.map _)

/-- **The entries for jobs** are those of the files that are shown and not of the hit list. -/
theorem mem_jobEntries_iff {e : Entry} : e ∈ jobEntries c entries ↔
    ∃ name f, t.shownFile? place name = some f ∧ c.hitList.owns name = false ∧
      e = .ofName name (folder.join name) (t.knownTime? folder name f) := by
  rw [mem_jobEntries, Store.mem_list_iff hl hentries]
  constructor
  · rintro ⟨⟨name, f, hf, rfl⟩, howns⟩
    rw [Entry.fileName_ofName] at howns
    exact ⟨name, f, hf, howns, rfl⟩
  · rintro ⟨name, f, hf, howns, rfl⟩
    exact ⟨⟨name, f, hf, rfl⟩, (Entry.fileName_ofName name _ _).symm ▸ howns⟩

/-- **An artifact of a group** is the file that its stem and the artifact name. -/
theorem get?_group_eq_some_iff {stem : String} {a : Artifact} (ha : a ≠ .unrecognized)
    (hsplit : FileName.split (a.fileName stem) = (stem, a.extension)) {e : Entry} :
    (JobFiles.group (jobEntries c entries) stem).get? a = some e ↔
      ∃ f, jobFile? c t place stem a = some f ∧
        e = .ofName (a.fileName stem) (folder.join (a.fileName stem))
          (t.knownTime? folder (a.fileName stem) f) := by
  rw [(JobFiles.isGroup_group (nodup_jobEntries hl hentries) stem).get?_eq_some_iff ha,
    JobFiles.mem_group, mem_jobEntries, Store.mem_list_iff hl hentries]
  constructor
  · rintro ⟨⟨⟨⟨name, f, hf, rfl⟩, howns⟩, hstem⟩, hart⟩
    have hname : name = a.fileName stem := by
      have h := Entry.fileName_of_artifact ha hart
      rwa [Entry.fileName_ofName, hstem] at h
    subst hname
    rw [Entry.fileName_ofName] at howns
    exact ⟨f, by rw [jobFile?, howns]; exact hf, rfl⟩
  · rintro ⟨f, hf, rfl⟩
    rw [jobFile?] at hf
    split at hf
    · cases hf
    · rename_i howns
      rw [Bool.not_eq_true] at howns
      refine ⟨⟨⟨⟨_, f, hf, rfl⟩, ?_⟩, ?_⟩, ?_⟩
      · rwa [Entry.fileName_ofName]
      · simp [Entry.ofName, hsplit]
      · simp [Entry.artifact, Entry.ofName, hsplit, Artifact.ofExtension_extension ha]

/-- The group of a stem has an artifact if the folder has a file for it. -/
theorem has_group_iff {stem : String} {a : Artifact} (ha : a ≠ .unrecognized)
    (hsplit : FileName.split (a.fileName stem) = (stem, a.extension)) :
    (JobFiles.group (jobEntries c entries) stem).has a = true ↔
      ∃ f, jobFile? c t place stem a = some f := by
  rw [JobFiles.has, Option.isSome_iff_exists]
  constructor
  · rintro ⟨e, he⟩
    obtain ⟨f, hf, -⟩ := (get?_group_eq_some_iff hl hentries ha hsplit).1 he
    exact ⟨f, hf⟩
  · rintro ⟨f, hf⟩
    exact ⟨_, (get?_group_eq_some_iff hl hentries ha hsplit).2 ⟨f, hf, rfl⟩⟩

/-- The group of a stem has results if the folder has any. -/
theorem hasAnyResult_group_iff {stem : String} (hs : stem ≠ "") :
    (JobFiles.group (jobEntries c entries) stem).hasAnyResult = true ↔
      ∃ a ∈ Artifact.results, ∃ f, jobFile? c t place stem a = some f := by
  rw [JobFiles.hasAnyResult, List.any_eq_true]
  refine exists_congr fun a => and_congr_right fun ha => ?_
  have hkind : a ≠ .unrecognized ∧ a ≠ .input := by
    constructor
    · rintro rfl
      simp [Artifact.results] at ha
    · rintro rfl
      simp [Artifact.results] at ha
  exact has_group_iff hl hentries hkind.1 (Artifact.split_fileName hs hkind.1 hkind.2)

/-- **The sweep finds the live workers.** -/
theorem isLive_group_iff {stem : String} (hs : stem ≠ "") :
    (policyOf c now answer).isLive (JobFiles.group (jobEntries c entries) stem) = true ↔
      IsLive c now t folder place stem := by
  have hrecognized : Artifact.progress ≠ .unrecognized := by decide
  have hget := fun e => get?_group_eq_some_iff (c := c) hl hentries hrecognized
    (Artifact.split_fileName hs hrecognized (by decide)) (e := e)
  rw [SweepPolicy.isLive, JobFiles.has, JobFiles.progressIsStale]
  cases hcase : (JobFiles.group (jobEntries c entries) stem).get? .progress with
  | none =>
    refine ⟨by simp, ?_⟩
    rintro ⟨f, written, hf, -, -⟩
    have h := (hget _).2 ⟨f, hf, rfl⟩
    rw [hcase] at h
    cases h
  | some e =>
    obtain ⟨f, hf, rfl⟩ := (hget e).1 hcase
    simp only [Option.isSome_some, Bool.true_and, Bool.not_eq_true', policyOf,
      isStale_eq_false_iff]
    constructor
    · rintro ⟨written, hknown, hage⟩
      exact ⟨f, written, hf, hknown, hage⟩
    · rintro ⟨f', written, hf', hknown, hage⟩
      rw [hf] at hf'
      cases hf'
      exact ⟨written, hknown, hage⟩

/-- The stem of a listed file is not empty. -/
theorem ne_empty_of_mem {e : Entry} (he : e ∈ entries) : e.stem ≠ "" := by
  obtain ⟨name, f, hf, rfl⟩ := (Store.mem_list_iff hl hentries).1 he
  rw [Tree.shownFile?_eq_some_iff, Tree.fileAt?_eq_some_iff] at hf
  refine FileName.split_fst_ne_empty ?_
  rintro rfl
  exact (hl.sound.isLegal hf.2).1.ne_nil rfl

/-- **What the groups give up is what the files of the folder call for.** -/
theorem mem_sweptFiles_iff {name : String} :
    name ∈ (sweptFiles c (policyOf c now answer) entries).map (·.fileName) ↔
      IsSwept c now answer t folder place name := by
  have hkeeps : ∀ e ∈ jobEntries c entries,
      ((policyOf c now answer).keeps (JobFiles.group (jobEntries c entries) e.stem) e = false ↔
        ¬ IsLive c now t folder place e.stem ∧
          (policyOf c now answer).keepsArtifact e.artifact = false) := by
    intro e he
    have hne := ne_empty_of_mem hl hentries (mem_jobEntries.1 he).1
    rw [SweepPolicy.keeps, Bool.or_eq_false_iff, ← isLive_group_iff hl hentries hne,
      Bool.not_eq_true]
  -- What the policy keeps, artifact by artifact.
  have hart : ∀ a : Artifact, (policyOf c now answer).keepsArtifact a = false ↔
      match a with
      | .progress | .unrecognized => True
      | .input => HoldsNothing answer
      | .csv | .log | .jobCopy | .busy | .lock | .mx => False := by
    intro a
    cases a <;> simp [SweepPolicy.keepsArtifact, policyOf, keepsInputs_eq_false_iff]
  rw [IsSwept, List.mem_map]
  constructor
  · rintro ⟨e, he, rfl⟩
    obtain ⟨hmem, hk⟩ := mem_sweptFiles.1 he
    obtain ⟨hlive, hgoes⟩ := (hkeeps e hmem).1 hk
    obtain ⟨hlisted, howns⟩ := mem_jobEntries.1 hmem
    obtain ⟨name, f, hf, rfl⟩ := (Store.mem_list_iff hl hentries).1 hlisted
    rw [Entry.fileName_ofName] at howns ⊢
    exact ⟨⟨f, hf⟩, howns, hlive, (hart _).1 hgoes⟩
  · rintro ⟨⟨f, hf⟩, howns, hlive, hgoes⟩
    have hlisted := (Store.mem_list_iff hl hentries).2 ⟨name, f, hf, rfl⟩
    have hmem := mem_jobEntries.2 ⟨hlisted, (Entry.fileName_ofName name _ _).symm ▸ howns⟩
    refine ⟨_, mem_sweptFiles.2 ⟨hmem, ?_⟩, Entry.fileName_ofName _ _ _⟩
    exact (hkeeps _ hmem).2 ⟨hlive, (hart _).2 hgoes⟩

end Listed

end Spool
end JobSpool
