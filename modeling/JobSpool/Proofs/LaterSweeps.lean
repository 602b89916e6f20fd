/-
# A later sweep absorbs an earlier one

`SweepPolicy` at two times: `SPEC_FULL.md`, E8.

Sweeps are compared by their policies.  A policy is *milder* than another one
(`SweepPolicy.IsMilder`) when it is of no later time, waits no less before it takes a worker for
dead, and keeps inputs whenever the other one does.  A worker that lives by the harsher policy
then lives by the milder one (`IsMilder.isLive`), and a file that the harsher one keeps is kept by
the milder one (`IsMilder.keeps`), so the harsher policy removes more of every group
(`IsMilder.removed_sublist`).

A sweep changes what the next one decides by: it takes a stale progress file away, and the worker
that was found dead is not looked for again.  But a worker that is dead by the milder policy is
dead by the harsher one, with its progress file and without.  So what the milder sweep leaves of a
group is for the harsher one as good as the whole group (`IsMilder.left_left`).

The files that a sweep leaves of a list make the groups that it left (`group_filesLeft`), so the
two sweeps together leave what the harsher one leaves alone (`later_sweep_absorbs`).
-/

import JobSpool.Proofs.Forecast
import Mathlib.Data.List.Flatten

namespace JobSpool
namespace SweepPolicy

variable {policy milder harsher : SweepPolicy} {s : JobFiles} {entries : List Entry}

/-! ### Milder policies -/

/-- Is a policy of no later time than another one, with no shorter limit, and does it keep inputs
whenever the other one does? -/
structure IsMilder (milder harsher : SweepPolicy) : Prop where
  now : milder.now ≤ harsher.now
  staleAfter : harsher.staleAfter ≤ milder.staleAfter
  keepInputs : harsher.keepInputs = true → milder.keepInputs = true

/-- A policy is no milder and no harsher than itself. -/
theorem IsMilder.refl (policy : SweepPolicy) : policy.IsMilder policy :=
  ⟨Int.le_refl _, Nat.le_refl _, id⟩

namespace IsMilder

/-- **A file that is stale by the milder policy is stale by the harsher one,** if its time is not
known, or lies however far back or ahead. -/
theorem isStale (h : milder.IsMilder harsher) {e : Entry}
    (hstale : JobFiles.isStale milder.now milder.staleAfter e = true) :
    JobFiles.isStale harsher.now harsher.staleAfter e = true := by
  unfold JobFiles.isStale at hstale ⊢
  cases hmodified : e.modified with
  | none => rfl
  | some written =>
    rw [hmodified] at hstale
    simp only [decide_eq_true_eq] at hstale ⊢
    calc (harsher.staleAfter : Int) ≤ milder.staleAfter := Int.ofNat_le.2 h.staleAfter
      _ < milder.now - written := hstale
      _ ≤ harsher.now - written := Int.sub_le_sub_right h.now written

/-- **Who lives by the harsher policy lives by the milder one.** -/
theorem isLive (h : milder.IsMilder harsher) (hlive : harsher.isLive s = true) :
    milder.isLive s = true := by
  unfold SweepPolicy.isLive JobFiles.progressIsStale at hlive ⊢
  rw [Bool.and_eq_true, Bool.not_eq_true'] at hlive ⊢
  refine ⟨hlive.1, ?_⟩
  cases hget : s.get? .progress with
  | none => rfl
  | some e =>
    rw [hget] at hlive
    by_contra hstale
    rw [Bool.not_eq_false] at hstale
    exact Bool.noConfusion (hlive.2.symm.trans (h.isStale hstale))

/-- A milder policy keeps every artifact that a harsher one keeps, -/
theorem keepsArtifact (h : milder.IsMilder harsher) {a : Artifact}
    (hkeeps : harsher.keepsArtifact a = true) : milder.keepsArtifact a = true := by
  cases a with
  | input => exact h.keepInputs hkeeps
  | _ => exact hkeeps

/-- and every file, be it that the worker of its job is live for one of them only. -/
theorem keeps (h : milder.IsMilder harsher) {e : Entry} (hkeeps : harsher.keeps s e = true) :
    milder.keeps s e = true := by
  unfold SweepPolicy.keeps at hkeeps ⊢
  rw [Bool.or_eq_true] at hkeeps ⊢
  exact hkeeps.imp h.isLive h.keepsArtifact

/-- **The harsher policy removes all that the milder one removes.** -/
theorem removed_sublist (h : milder.IsMilder harsher) (s : JobFiles) :
    (milder.removed s).Sublist (harsher.removed s) := by
  refine List.monotone_filter_right _ fun e hgoes => ?_
  rw [Bool.not_eq_true'] at hgoes ⊢
  by_contra hkeeps
  rw [Bool.not_eq_false] at hkeeps
  rw [h.keeps hkeeps] at hgoes
  cases hgoes

end IsMilder

/-! ### Sweeping what was left -/

/-- Of a job without a live worker the policy keeps files by their artifacts alone. -/
theorem kept_of_not_isLive (h : policy.isLive s = false) :
    policy.kept s = s.entries.filter fun e => policy.keepsArtifact e.artifact := by
  unfold kept keeps
  simp only [h, Bool.false_or]

/-- What a sweep leaves has no dead worker. -/
theorem isLive_left_of_not_isLive (h : policy.isLive s = false) (other : SweepPolicy) :
    other.isLive (policy.left s) = false := by
  have hprogress : (policy.left s).has .progress = false := by
    rw [has_left h]
    rfl
  rw [isLive, hprogress]
  rfl

/-- **What the milder sweep leaves is as good as the whole group.** -/
theorem IsMilder.left_left (h : milder.IsMilder harsher) (s : JobFiles) :
    harsher.left (milder.left s) = harsher.left s := by
  cases hlive : milder.isLive s with
  | true => rw [left_of_isLive hlive]
  | false =>
    have hdead : harsher.isLive s = false := by
      by_contra hnot
      rw [Bool.not_eq_false] at hnot
      rw [h.isLive hnot] at hlive
      cases hlive
    rw [left, kept_of_not_isLive (isLive_left_of_not_isLive hlive harsher), left, left,
      kept_of_not_isLive hlive, kept_of_not_isLive hdead, List.filter_filter]
    congr 1
    refine List.filter_congr fun e _ => ?_
    rw [Bool.eq_iff_iff, Bool.and_eq_true]
    exact ⟨And.left, fun hkeeps => ⟨hkeeps, h.keepsArtifact hkeeps⟩⟩

/-- **Nothing is left to remove,** -/
theorem removed_left (policy : SweepPolicy) (s : JobFiles) :
    policy.removed (policy.left s) = [] := by
  have hkept : policy.kept (policy.left s) = policy.kept s :=
    congrArg JobFiles.entries ((IsMilder.refl policy).left_left s)
  have hlength := (policy.removed_append_kept_perm (policy.left s)).length_eq
  rw [List.length_append, hkept, left, Nat.add_eq_right] at hlength
  exact List.eq_nil_of_length_eq_zero hlength

/-- **and nothing that is left is orphaned.** -/
theorem state?_left_ne_orphaned (policy : SweepPolicy) (s : JobFiles) :
    policy.state? (policy.left s) ≠ some .orphaned := by
  rw [Ne, state?_eq_orphaned_iff, not_or]
  cases hlive : policy.isLive s with
  | true =>
    rw [left_of_isLive hlive, hlive]
    refine ⟨fun horphaned => Bool.noConfusion horphaned.2.2, ?_⟩
    rintro ⟨hqueued, -⟩
    rw [isLive, (JobFiles.has_of_queued hqueued).1] at hlive
    cases hlive
  | false =>
    have hhas := has_left hlive
    refine ⟨?_, ?_⟩
    · rintro ⟨-, hprogress, -⟩
      rw [hhas] at hprogress
      cases hprogress
    · rintro ⟨hqueued, hkeep⟩
      have hinput := (JobFiles.has_of_queued hqueued).2.2
      rw [hhas, keepsArtifact, hkeep] at hinput
      cases hinput

/-! ### Sweeping the files of a list -/

/-- The files of a list that a sweep removes, group by group. -/
def filesRemoved (policy : SweepPolicy) (entries : List Entry) : List Entry :=
  (JobFiles.groups entries).flatMap policy.removed

/-- The files of a list without those that a sweep removes. -/
def filesLeft (policy : SweepPolicy) (entries : List Entry) : List Entry :=
  entries.filter fun e => !(policy.filesRemoved entries).contains e

/-- A file is removed if the policy does not keep it in the group of its stem. -/
theorem mem_filesRemoved {e : Entry} : e ∈ policy.filesRemoved entries ↔
    e ∈ entries ∧ policy.keeps (JobFiles.group entries e.stem) e = false := by
  rw [filesRemoved, JobFiles.groups_eq, List.flatMap_map, List.mem_flatMap]
  constructor
  · rintro ⟨stem, -, he⟩
    obtain ⟨hgroup, hgoes⟩ := mem_removed.1 he
    obtain ⟨hmem, rfl⟩ := JobFiles.mem_group.1 hgroup
    exact ⟨hmem, hgoes⟩
  · rintro ⟨hmem, hgoes⟩
    exact ⟨e.stem, JobFiles.mem_stems.2 ⟨e, hmem, rfl⟩,
      mem_removed.2 ⟨JobFiles.mem_group.2 ⟨hmem, rfl⟩, hgoes⟩⟩

/-- A file is left if its own group has the sweep keep it. -/
theorem filesLeft_eq (policy : SweepPolicy) (entries : List Entry) : policy.filesLeft entries
    = entries.filter fun e => policy.keeps (JobFiles.group entries e.stem) e := by
  refine List.filter_congr fun e he => ?_
  rw [Bool.eq_iff_iff, Bool.not_eq_true', List.contains_eq_mem, decide_eq_false_iff_not,
    mem_filesRemoved, not_and, Bool.not_eq_false]
  exact ⟨fun hkeeps => hkeeps he, fun hkeeps _ => hkeeps⟩

/-- **What is left has the groups that the sweep left.** -/
theorem group_filesLeft (policy : SweepPolicy) (entries : List Entry) (stem : String) :
    JobFiles.group (policy.filesLeft entries) stem
      = policy.left (JobFiles.group entries stem) := by
  rw [JobFiles.group, filesLeft_eq, List.filter_filter, left, kept, JobFiles.group,
    List.filter_filter]
  congr 1
  refine List.filter_congr fun e _ => ?_
  by_cases hstem : e.stem = stem
  · rw [hstem, beq_self_eq_true, Bool.true_and, Bool.and_true]
    rfl
  · rw [beq_eq_false_iff_ne.2 hstem, Bool.false_and, Bool.and_false]

/-- **What two sweeps leave of a list** is what the harsher one leaves of it alone. -/
theorem IsMilder.filesLeft_filesLeft (h : milder.IsMilder harsher) (entries : List Entry) :
    harsher.filesLeft (milder.filesLeft entries) = harsher.filesLeft entries := by
  rw [filesLeft_eq harsher (milder.filesLeft entries)]
  simp only [group_filesLeft]
  rw [filesLeft_eq, filesLeft_eq, List.filter_filter]
  refine List.filter_congr fun e he => ?_
  have hmem : e ∈ (JobFiles.group entries e.stem).entries := JobFiles.mem_group.2 ⟨he, rfl⟩
  have hkept : harsher.kept (milder.left (JobFiles.group entries e.stem))
      = harsher.kept (JobFiles.group entries e.stem) :=
    congrArg JobFiles.entries (h.left_left _)
  have hiff : e ∈ harsher.kept (milder.left (JobFiles.group entries e.stem)) ↔
      e ∈ harsher.kept (JobFiles.group entries e.stem) := by rw [hkept]
  rw [kept, kept, List.mem_filter, List.mem_filter, and_iff_right hmem, left, kept,
    List.mem_filter, and_iff_right hmem] at hiff
  rw [Bool.eq_iff_iff, Bool.and_eq_true, and_comm]
  exact hiff

/-- **The harsher policy removes all files of a list that the milder one removes.** -/
theorem IsMilder.filesRemoved_sublist (h : milder.IsMilder harsher) (entries : List Entry) :
    (milder.filesRemoved entries).Sublist (harsher.filesRemoved entries) :=
  List.Sublist.flatMap_right _ fun s _ => h.removed_sublist s

/-- **A sweep that is done again removes nothing.** -/
theorem filesRemoved_filesLeft (policy : SweepPolicy) (entries : List Entry) :
    policy.filesRemoved (policy.filesLeft entries) = [] := by
  refine List.flatMap_eq_nil_iff.2 fun s hs => ?_
  rw [(JobFiles.mem_groups.1 hs).2, group_filesLeft]
  exact removed_left _ _

/-- **A later sweep absorbs an earlier one.**  The harsher policy removes every file that the
milder one removes, and what both sweeps leave is what the harsher one alone leaves.  A sweep
that is done again removes nothing and finds nothing orphaned. -/
theorem later_sweep_absorbs (h : milder.IsMilder harsher) (entries : List Entry) :
    (milder.filesRemoved entries).Sublist (harsher.filesRemoved entries) ∧
      harsher.filesLeft (milder.filesLeft entries) = harsher.filesLeft entries ∧
        milder.filesRemoved (milder.filesLeft entries) = [] ∧
          ∀ s ∈ JobFiles.groups (milder.filesLeft entries),
            milder.state? s ≠ some .orphaned := by
  refine ⟨h.filesRemoved_sublist entries, h.filesLeft_filesLeft entries,
    filesRemoved_filesLeft milder entries, fun s hs => ?_⟩
  rw [(JobFiles.mem_groups.1 hs).2, group_filesLeft]
  exact state?_left_ne_orphaned _ _

/-! ### Two sweeps of one list -/

/-- A sweep while the facility holds something. -/
def firstSweep : SweepPolicy :=
  ⟨100, 60, true⟩

/-- A sweep that comes later, waits less and removes inputs. -/
def secondSweep : SweepPolicy :=
  ⟨200, 50, false⟩

/-- The file `a.count` goes stale between the sweeps, when `b.count` was written is not known, and
`d.count` is from the future. -/
def scattered : List Entry :=
  [("d.count", some 300), ("a", some 0), ("b.count", none), ("c.tmp", some 90),
    ("a.count", some 50)].map fun (name, modified) => .ofName name ⟨name⟩ modified

/-- The two sweeps of the list: what the first one leaves, and what is left of that by the
second. -/
theorem later_sweep_absorbs_scattered : firstSweep.IsMilder secondSweep ∧
    (firstSweep.filesLeft scattered).map (·.fileName) = ["d.count", "a", "a.count"] ∧
      (secondSweep.filesLeft (firstSweep.filesLeft scattered)).map (·.fileName) = ["d.count"] := by
  have hmilder : firstSweep.IsMilder secondSweep := ⟨by decide, by decide, nofun⟩
  refine ⟨hmilder, ?_, ?_⟩
  · rw [filesLeft_eq]
    decide +kernel
  · rw [(later_sweep_absorbs hmilder scattered).2.1, filesLeft_eq]
    decide +kernel

end SweepPolicy
end JobSpool
