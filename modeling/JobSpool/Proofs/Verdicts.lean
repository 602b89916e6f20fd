/-
# What a verdict on an orphaned job tells

`state_after_sweep`: `SPEC_FULL.md`, E8.

A sweep reports an orphaned job with a verdict on the files that it leaves (`SweepPolicy.remains`).
The verdict is meant to say what is left of the job (`Tells`): nothing, all results, or some of
them.

It is the state that the files would be listed in, and a listing looks at more than results, and at
less than all files.  Markers make no job, so a job of which only markers are left is called deleted
(`verdict_eq_deleted_iff`).  A lone input waits, so a job of which the input was kept is called
orphaned, though it has no results at all (`verdict_eq_orphaned_iff`).

These are the only cases: the verdict tells what is left if it is nothing, or if a result is among
it, and else it does not (`verdict_tells_iff`).
-/

import JobSpool.Proofs.Forecast

namespace JobSpool
namespace SweepPolicy

variable {policy : SweepPolicy} {s : JobFiles}

/-- The names of the files of a job that go. -/
def removedNames (policy : SweepPolicy) (s : JobFiles) : List String :=
  (policy.removed s).map (·.fileName)

/-- The files of a job without those that go. -/
def remains (policy : SweepPolicy) (s : JobFiles) : JobFiles :=
  s.without (policy.removedNames s)

/-- The verdict on a job without the files that go. -/
def verdict (policy : SweepPolicy) (s : JobFiles) : JobState :=
  s.stateAfterSweep (policy.removedNames s)

/-- Does a verdict tell what is left of a job? -/
def Tells (remains : JobFiles) : JobState → Prop
  | .deleted => remains.entries = []
  | .completed => remains.hasAllResults = true
  | .orphaned => remains.hasAnyResult = true ∧ remains.hasAllResults = false
  | .queued | .running => False

/-! ### The files that are left -/

/-- **What is left was to be kept.** -/
theorem keeps_of_mem_remains {e : Entry} (h : e ∈ (policy.remains s).entries) :
    policy.keeps s e = true := by
  obtain ⟨hmem, hname⟩ := List.mem_filter.1 h
  by_contra hgoes
  have hremoved : e ∈ policy.removed s := mem_removed.2 ⟨hmem, Bool.not_eq_true _ ▸ hgoes⟩
  have hgone : e.fileName ∈ policy.removedNames s := List.mem_map_of_mem hremoved
  simp [hgone] at hname

/-- Of a job without a live worker, only some artifacts are. -/
theorem keepsArtifact_of_mem_remains (hlive : policy.isLive s = false) {e : Entry}
    (h : e ∈ (policy.remains s).entries) : policy.keepsArtifact e.artifact = true := by
  have hkeeps := keeps_of_mem_remains h
  rwa [keeps, hlive, Bool.false_or] at hkeeps

/-- Of a job that is not live no progress file remains. -/
theorem has_progress_remains (hlive : policy.isLive s = false) :
    (policy.remains s).has .progress = false := by
  by_contra hprogress
  rw [Bool.not_eq_false] at hprogress
  obtain ⟨e, he, hartifact⟩ := JobFiles.has_iff.1 hprogress
  have hkeeps := keepsArtifact_of_mem_remains hlive he
  rw [hartifact] at hkeeps
  cases hkeeps

/-- What is left without a result and an input are markers. -/
theorem isMarker_of_mem_remains (hlive : policy.isLive s = false)
    (hany : (policy.remains s).hasAnyResult = false)
    (hinput : (policy.remains s).has .input = false) {e : Entry}
    (he : e ∈ (policy.remains s).entries) : e.artifact.isMarker = true := by
  have hkeeps := keepsArtifact_of_mem_remains hlive he
  have hnot : ∀ a, (policy.remains s).has a = false → e.artifact ≠ a := fun a ha hartifact =>
    Bool.noConfusion (ha.symm.trans (JobFiles.has_iff.2 ⟨e, he, hartifact⟩))
  rw [JobFiles.hasAnyResult_eq, Bool.or_eq_false_iff, Bool.or_eq_false_iff] at hany
  obtain ⟨⟨hcsv, hlog⟩, hjobCopy⟩ := hany
  cases hartifact : e.artifact with
  | input => exact absurd hartifact (hnot _ hinput)
  | csv => exact absurd hartifact (hnot _ hcsv)
  | log => exact absurd hartifact (hnot _ hlog)
  | jobCopy => exact absurd hartifact (hnot _ hjobCopy)
  | busy => rfl
  | lock => rfl
  | mx => rfl
  | progress =>
    rw [hartifact] at hkeeps
    cases hkeeps
  | unrecognized =>
    rw [hartifact] at hkeeps
    cases hkeeps

/-! ### When each verdict is given -/

/-- The verdict asks for all results first, then for any result or the input. -/
theorem verdict_eq (hlive : policy.isLive s = false) : policy.verdict s =
    if (policy.remains s).hasAllResults then .completed
    else if (policy.remains s).hasAnyResult || (policy.remains s).has .input then .orphaned
    else .deleted := by
  have hstate := JobFiles.state?_of_has_progress (has_progress_remains hlive)
  have hremains : s.without (policy.removedNames s) = policy.remains s := rfl
  rw [verdict, JobFiles.stateAfterSweep, hremains, hstate]
  cases (policy.remains s).hasAllResults <;> cases (policy.remains s).hasAnyResult <;>
    cases (policy.remains s).has .input <;> rfl

/-- **There are three verdicts.** -/
theorem verdict_cases (hlive : policy.isLive s = false) :
    policy.verdict s = .completed ∨ policy.verdict s = .orphaned ∨ policy.verdict s = .deleted := by
  rw [verdict_eq hlive]
  split
  · exact Or.inl rfl
  · split
    · exact Or.inr (Or.inl rfl)
    · exact Or.inr (Or.inr rfl)

/-- The verdict is that a job is completed exactly if all its results remain. -/
theorem verdict_eq_completed_iff (hlive : policy.isLive s = false) :
    policy.verdict s = .completed ↔ (policy.remains s).hasAllResults = true := by
  rw [verdict_eq hlive]
  split
  · rename_i hall
    simp [hall]
  · rename_i hall
    split <;> simp [hall]

/-- **A job is called orphaned** if results are missing and others are left, or the input is. -/
theorem verdict_eq_orphaned_iff (hlive : policy.isLive s = false) :
    policy.verdict s = .orphaned ↔ (policy.remains s).hasAllResults = false ∧
      ((policy.remains s).hasAnyResult = true ∨ (policy.remains s).has .input = true) := by
  rw [verdict_eq hlive, ← Bool.or_eq_true]
  cases (policy.remains s).hasAllResults <;>
    cases (policy.remains s).hasAnyResult || (policy.remains s).has .input <;> simp

/-- **A job is called deleted** if nothing but markers is left. -/
theorem verdict_eq_deleted_iff (hlive : policy.isLive s = false) :
    policy.verdict s = .deleted ↔
      ∀ e ∈ (policy.remains s).entries, e.artifact.isMarker = true := by
  have hdeleted : policy.verdict s = .deleted ↔
      ((policy.remains s).hasAnyResult || (policy.remains s).has .input) = false := by
    rw [verdict_eq hlive]
    cases hall : (policy.remains s).hasAllResults with
    | true => simp [JobFiles.hasAnyResult_of_all hall]
    | false =>
      cases (policy.remains s).hasAnyResult || (policy.remains s).has .input <;> simp
  rw [hdeleted, Bool.or_eq_false_iff]
  constructor
  · rintro ⟨hany, hinput⟩ e he
    exact isMarker_of_mem_remains hlive hany hinput he
  · intro hmarkers
    have hnone : ∀ a, a.isMarker = false → (policy.remains s).has a = false := by
      intro a ha
      by_contra hhas
      rw [Bool.not_eq_false] at hhas
      obtain ⟨e, he, rfl⟩ := JobFiles.has_iff.1 hhas
      exact Bool.noConfusion (ha.symm.trans (hmarkers e he))
    rw [JobFiles.hasAnyResult_eq, hnone .csv rfl, hnone .log rfl, hnone .jobCopy rfl,
      hnone .input rfl]
    exact ⟨rfl, rfl⟩

/-- **The verdict on an orphaned job tells what is left of it** if that is nothing, or if a result
is among it.  Else it does not: a job is called deleted with markers left, and orphaned with its
input left. -/
theorem verdict_tells_iff (h : policy.state? s = some .orphaned) :
    (policy.verdict s = .completed ↔ (policy.remains s).hasAllResults = true) ∧
    (policy.verdict s = .orphaned ↔ (policy.remains s).hasAllResults = false ∧
      ((policy.remains s).hasAnyResult = true ∨ (policy.remains s).has .input = true)) ∧
    (policy.verdict s = .deleted ↔
      ∀ e ∈ (policy.remains s).entries, e.artifact.isMarker = true) ∧
    ((∀ state, policy.verdict s = state ↔ Tells (policy.remains s) state) ↔
      (policy.remains s).entries = [] ∨ (policy.remains s).hasAnyResult = true) := by
  have hlive := isLive_of_orphaned h
  have hcompleted := verdict_eq_completed_iff hlive
  have horphaned := verdict_eq_orphaned_iff hlive
  have hdeleted := verdict_eq_deleted_iff hlive
  refine ⟨hcompleted, horphaned, hdeleted, fun htells => ?_, fun hleft state => ?_⟩
  -- If the verdict tells what is left, each of the three has nothing or a result left.
  · rcases verdict_cases hlive with hverdict | hverdict | hverdict
    · exact Or.inr (JobFiles.hasAnyResult_of_all (hcompleted.1 hverdict))
    · exact Or.inr ((htells .orphaned).1 hverdict).1
    · exact Or.inl ((htells .deleted).1 hverdict)
  -- Conversely the input is no reason for the verdict once a result is left, or nothing.
  · cases state with
    | completed => exact hcompleted
    | orphaned =>
      rw [horphaned, Tells, and_comm]
      refine and_congr_left fun _ => ⟨fun hsome => ?_, Or.inl⟩
      rcases hleft with hnil | hany
      · simp [JobFiles.hasAnyResult, Artifact.results, JobFiles.has, JobFiles.get?, hnil] at hsome
      · exact hany
    | deleted =>
      rw [Tells]
      refine ⟨fun hverdict => hleft.resolve_right fun hany => ?_, fun hnil => ?_⟩
      · cases hall : (policy.remains s).hasAllResults with
        | true => exact JobState.noConfusion (hverdict.symm.trans (hcompleted.2 hall))
        | false =>
          exact JobState.noConfusion (hverdict.symm.trans (horphaned.2 ⟨hall, Or.inl hany⟩))
      · exact hdeleted.2 (by simp [hnil])
    | queued =>
      exact iff_of_false (fun hverdict => by simpa [hverdict] using verdict_cases hlive) id
    | running =>
      exact iff_of_false (fun hverdict => by simpa [hverdict] using verdict_cases hlive) id

/-! ### Two jobs whose verdict misleads -/

/-- A sweep some time after all workers have died. -/
def longAfter (keepInputs : Bool) : SweepPolicy :=
  ⟨10000, 900, keepInputs⟩

/-- A job whose worker has died, and a file that it has left. -/
def abandoned (leftover : String) : JobFiles :=
  ⟨"job", ["job.count", leftover].map fun name => .ofName name ⟨name⟩ (some 0)⟩

/-- With its input kept, the job is called orphaned. -/
theorem verdict_tells_iff_keptInput :
    (longAfter true).state? (abandoned "job") = some .orphaned ∧
    (longAfter true).verdict (abandoned "job") = .orphaned ∧
    ¬ ∀ state, (longAfter true).verdict (abandoned "job") = state ↔
      Tells ((longAfter true).remains (abandoned "job")) state := by
  have hstate : (longAfter true).state? (abandoned "job") = some .orphaned := by decide +kernel
  obtain ⟨-, horphaned, -, htells⟩ := verdict_tells_iff hstate
  refine ⟨hstate, horphaned.2 (by decide +kernel), ?_⟩
  rw [htells]
  decide +kernel

/-- **A job is called deleted with its marker left.** -/
theorem verdict_not_always_tells :
    ¬ ∀ (policy : SweepPolicy) (s : JobFiles), policy.state? s = some .orphaned →
      ∀ state, policy.verdict s = state ↔ Tells (policy.remains s) state := by
  intro h
  have htells := h (longAfter false) (abandoned "job.lock") (by decide +kernel) .deleted
  have hnil : ((longAfter false).remains (abandoned "job.lock")).entries = [] :=
    htells.1 (by decide +kernel)
  exact absurd hnil (by decide +kernel)

end SweepPolicy
end JobSpool
