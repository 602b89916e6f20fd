/-
# Reconciling removes what is left over, and nothing else

`reconcile`: `SPEC_FULL.md`, E8, where "Kept" and "Removed" are listed.

When every file that `IsSwept` names could be removed alone, a sweep removes those files
and no others (`reconcile_removes_exactly`).  Its report names each file of the folder that
is shown once, among the files that went or among those that stayed, and each list is sorted.
-/

import JobSpool.Proofs.Sweeps
import JobSpool.Scheduler.Memory

namespace JobSpool
namespace Spool

open Files (Tree Place File Object)

variable {σ : Type} [Scheduler σ] {c : Config} {now : Instant} {p : Principal} {s : Spool σ}
  {place : Place} {mode : Nat} {entries : List Entry}

/-- What the scheduler of a spool answers when it is asked what it holds. -/
def pendingAnswer (now : Instant) (s : Spool σ) : Except SchedulerError PendingQueue :=
  (Scheduler.pending s.files now s.scheduler).1

/-- Could each file that a sweep removes be removed alone? -/
def SweptAreRemovable (c : Config) (now : Instant) (p : Principal) (s : Spool σ) (place : Place) :
    Prop :=
  ∀ name, IsSwept c now (pendingAnswer now s) s.files (c.store.folder p) place name →
    ∃ t', s.files.remove ((c.store.folder p).join name) = .ok t'

/-- The policy of a sweep of a spool. -/
def policyFor (c : Config) (now : Instant) (s : Spool σ) : SweepPolicy :=
  policyOf c now (pendingAnswer now s)

/-- If each file that is to go can be removed, a sweep can remove them all. -/
theorem removable_sweptFiles (hl : s.files.Leads (c.store.folder p) place mode)
    (hentries : Store.list (c.store.folder p) s.files = .ok entries)
    (hremove : SweptAreRemovable c now p s place) :
    Store.Removable s.files (c.store.folder p) place
      (sweptFiles c (policyFor c now s) entries) := by
  have hlisted : ∀ e ∈ sweptFiles c (policyFor c now s) entries, e ∈ entries :=
    fun _ => mem_of_mem_sweptFiles
  refine ⟨?_, ?_, ?_, ?_⟩
  · intro e he
    obtain ⟨name, f, -, rfl⟩ := (Store.mem_list_iff hl hentries).1 (hlisted e he)
    rw [Entry.fileName_ofName]
    rfl
  · intro e he
    obtain ⟨name, f, hf, rfl⟩ := (Store.mem_list_iff hl hentries).1 (hlisted e he)
    rw [Entry.fileName_ofName]
    exact ⟨f, (Tree.shownFile?_eq_some_iff.1 hf).2⟩
  · intro e he
    exact hremove _ ((mem_sweptFiles_iff hl hentries).1 (List.mem_map_of_mem he))
  · exact nodup_sweptFiles c (policyFor c now s) (Store.nodup_list hl hentries)

/-- **A sweep in which every file can be removed,** written out. -/
theorem reconcile_eq (hl : s.files.Leads (c.store.folder p) place mode)
    (hentries : Store.list (c.store.folder p) s.files = .ok entries)
    (hremove : SweptAreRemovable c now p s place) :
    reconcile c now p s =
      (.ok {
        removed := Text.sortNames
          ((sweptFiles c (policyFor c now s) entries).map (·.fileName))
        kept := Text.sortNames ((keptFiles c (policyFor c now s) entries).map (·.fileName))
        orphaned := Text.sortNaturalDescending (·.stem)
          ((JobFiles.groups (jobEntries c entries)).flatMap (policyFor c now s).orphanedIn) },
      { files := s.files.without
          ((sweptFiles c (policyFor c now s) entries).map (Store.placeIn place))
        scheduler := (Scheduler.pending s.files now s.scheduler).2 }) := by
  have hrun := sweepEntries_eq hl (removable_sweptFiles hl hentries hremove)
  rw [reconcile]
  simp only [hl.isFolder, Bool.not_true, Bool.false_eq_true, if_false, withScheduler, hentries]
  exact congrArg (fun r : SweepReport × Tree => (Except.ok r.1, (⟨r.2, _⟩ : Spool σ))) hrun

/-- **Reconciling removes exactly what is left over, and accounts for every file.**  No removal
fails, whatever is not removed stays as it is, wherever it stands, and every file that is shown
is named once in the report. -/
theorem reconcile_removes_exactly (c : Config) (now : Instant) (p : Principal) (s : Spool σ)
    {place : Place} {mode : Nat} (hl : s.files.Leads (c.store.folder p) place mode)
    (hread : (Object.folder mode).mayRead = true)
    (hremove : SweptAreRemovable c now p s place) :
    ∃ report s', reconcile c now p s = (.ok report, s') ∧ report.failures = [] ∧
      (∀ name, name ∈ report.removed ↔
        IsSwept c now (pendingAnswer now s) s.files (c.store.folder p) place name) ∧
      (∀ name ∈ report.removed, s'.files.at? (place ++ [.text name]) = none) ∧
      (∀ other, (∀ name ∈ report.removed, other ≠ place ++ [.text name]) →
        s'.files.at? other = s.files.at? other) ∧
      (∀ name, name ∈ report.removed ∨ name ∈ report.kept ↔
        ∃ f, s.files.shownFile? place name = some f) ∧
      (report.removed ++ report.kept).Nodup ∧
      report.removed.Pairwise (fun a b => Text.byteOrder a b = .lt) ∧
      report.kept.Pairwise (fun a b => Text.byteOrder a b = .lt) := by
  obtain ⟨entries, hentries⟩ : ∃ entries, Store.list (c.store.folder p) s.files = .ok entries :=
    ⟨_, (Store.list_eq_ok_iff hl).2 ⟨hread, rfl⟩⟩
  have hnodup := Store.nodup_list hl hentries
  have hperm := (swept_append_kept_perm c (policyFor c now s) hnodup.of_map).map
    (fun e : Entry => e.fileName)
  rw [List.map_append] at hperm
  have hparts := hperm.nodup_iff.2 hnodup
  -- What the groups give up, sorted, is what `IsSwept` names.
  have hmem : ∀ name, name ∈ Text.sortNames
      ((sweptFiles c (policyFor c now s) entries).map (·.fileName)) ↔
        IsSwept c now (pendingAnswer now s) s.files (c.store.folder p) place name := by
    intro name
    rw [(Text.perm_sortNames _).mem_iff]
    exact mem_sweptFiles_iff hl hentries
  have hplace : ∀ other, other ∈ (sweptFiles c (policyFor c now s) entries).map
      (Store.placeIn place) ↔ ∃ name ∈ Text.sortNames
        ((sweptFiles c (policyFor c now s) entries).map (·.fileName)),
          other = place ++ [.text name] := by
    intro other
    simp only [(Text.perm_sortNames _).mem_iff, List.mem_map, Store.placeIn]
    constructor
    · rintro ⟨e, he, rfl⟩
      exact ⟨_, ⟨e, he, rfl⟩, rfl⟩
    · rintro ⟨_, ⟨e, he, rfl⟩, rfl⟩
      exact ⟨e, he, rfl⟩
  refine ⟨_, _, reconcile_eq hl hentries hremove, rfl, hmem, ?_, ?_, ?_, ?_, ?_, ?_⟩
  -- What is reported as removed is gone.
  · intro name hname
    rw [Tree.at?_without (by simp), if_pos ((hplace _).2 ⟨name, hname, rfl⟩)]
  -- Nothing else has changed.
  · intro other hother
    have hnot : other ∉ (sweptFiles c (policyFor c now s) entries).map (Store.placeIn place) := by
      intro h
      obtain ⟨name, hname, heq⟩ := (hplace other).1 h
      exact hother name hname heq
    by_cases hnil : other = []
    · simp [hnil, Tree.at?]
    · rw [Tree.at?_without hnil, if_neg hnot]
  -- The report names the files that are shown, and no others.
  · intro name
    rw [(Text.perm_sortNames _).mem_iff, (Text.perm_sortNames _).mem_iff, ← List.mem_append,
      hperm.mem_iff, List.mem_map]
    constructor
    · rintro ⟨e, he, rfl⟩
      obtain ⟨name, f, hf, rfl⟩ := (Store.mem_list_iff hl hentries).1 he
      exact ⟨f, (Entry.fileName_ofName name _ _).symm ▸ hf⟩
    · rintro ⟨f, hf⟩
      exact ⟨_, (Store.mem_list_iff hl hentries).2 ⟨name, f, hf, rfl⟩, Entry.fileName_ofName _ _ _⟩
  -- It names each of them once, in order.
  · exact ((Text.perm_sortNames _).append (Text.perm_sortNames _)).nodup_iff.2 hparts
  · exact Text.pairwise_sortNames hparts.of_append_left
  · exact Text.pairwise_sortNames hparts.of_append_right

/-! ### A folder with something left over -/

/-- A worker was killed on the job `a`, and the job `b` is completed in part. -/
def leftOver : Spool MemoryScheduler where
  files := {
    entries := [
      ([.text "jobs"], .folder Files.folderMode),
      ([.text "jobs", .text "u"], .folder Files.folderMode),
      ([.text "jobs", .text "u", .text "a"], .file ⟨ByteArray.empty, Files.fileMode, 0⟩),
      ([.text "jobs", .text "u", .text "a.count"], .file ⟨ByteArray.empty, Files.fileMode, 0⟩),
      ([.text "jobs", .text "u", .text "b.csv"], .file ⟨ByteArray.empty, Files.fileMode, 0⟩)]
    home := [] }
  scheduler := {}

/-- The owner of the folder. -/
def leftOverOwner : Principal :=
  ⟨"u", by decide⟩

/-- The folder of the example is there. -/
theorem leads_leftOver : leftOver.files.Leads ⟨"/jobs/u"⟩ [.text "jobs", .text "u"]
    Files.folderMode :=
  ⟨by decide, rfl⟩

/-- Each of its files can be removed. -/
theorem sweptAreRemovable_leftOver (now : Instant) :
    SweptAreRemovable (.withJobRoot ⟨"/jobs"⟩) now leftOverOwner leftOver
      [.text "jobs", .text "u"] := by
  rintro name ⟨⟨f, hf⟩, -⟩
  rw [Tree.shownFile?_eq_some_iff, Tree.fileAt?_eq_some_iff,
    ← leads_leftOver.sound.mem_children_iff] at hf
  have hname : name = "a" ∨ name = "a.count" ∨ name = "b.csv" := by
    rcases hf.2 with _ | ⟨_, _ | ⟨_, _ | ⟨_, h⟩⟩⟩
    · exact Or.inl rfl
    · exact Or.inr (Or.inl rfl)
    · exact Or.inr (Or.inr rfl)
    · cases h
  rcases hname with rfl | rfl | rfl <;> exact ⟨_, rfl⟩

/-- The worker of its job was killed long ago. -/
theorem not_isLive_leftOver : ¬ IsLive (.withJobRoot ⟨"/jobs"⟩) 1000000000000 leftOver.files
    ⟨"/jobs/u"⟩ [.text "jobs", .text "u"] "a" := by
  rintro ⟨f, written, hf, hknown, hage⟩
  cases (show some _ = some f from hf)
  cases (show some _ = some written from hknown)
  revert hage
  decide

/-- The sweep of it takes the input of the job, and leaves the results of another one. -/
theorem reconcile_removes_exactly_leftOver :
    SweptAreRemovable (.withJobRoot ⟨"/jobs"⟩) 1000000000000 leftOverOwner leftOver
        [.text "jobs", .text "u"] ∧
      ∃ report s', reconcile (.withJobRoot ⟨"/jobs"⟩) 1000000000000 leftOverOwner leftOver
          = (.ok report, s') ∧ "a" ∈ report.removed ∧ "b.csv" ∈ report.kept := by
  refine ⟨sweptAreRemovable_leftOver _, ?_⟩
  obtain ⟨report, s', h, -, hremoved, -, -, hall, -⟩ := reconcile_removes_exactly
    (.withJobRoot ⟨"/jobs"⟩) 1000000000000 leftOverOwner leftOver leads_leftOver (by decide)
      (sweptAreRemovable_leftOver _)
  refine ⟨report, s', h, ?_, ?_⟩
  · refine (hremoved "a").2 ⟨⟨_, rfl⟩, by decide, not_isLive_leftOver, ?_⟩
    exact ⟨_, rfl, rfl⟩
  · refine ((hall "b.csv").2 ⟨_, rfl⟩).resolve_left fun hmem => ?_
    exact ((hremoved "b.csv").1 hmem).2.2.2

end Spool
end JobSpool
