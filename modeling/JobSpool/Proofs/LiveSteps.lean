/-
# The steps of a live job

The worker of a job and everyone who calls upon the spool take steps in any order
(`LiveJob.Step`), and the scheduler may be switched off and on in between.  A step of the
worker changes one of the job's files at most (`LiveJob.ChangesOnly`), so what it does to the
others is known from the file it changes.  What the worker cannot write stays as it is, and its
step is a step all the same; but its progress can always be written (`exists_write_progress`).

Every step keeps what `LiveJob.Agrees` says (`agrees_step`), so it holds along every run
(`agrees_of_run`).
-/

import JobSpool.Proofs.LiveJob
import Mathlib.Logic.Relation

namespace JobSpool

open Files (Tree Place File Object)

namespace LiveJob

variable {j : LiveJob} {here : Place} {mode : Nat} {t t' : Tree}

/-! ### Changing one of the job's files -/

/-- Does only one of the job's files change? -/
structure ChangesOnly (j : LiveJob) (here : Place) (a : Artifact) (t t' : Tree) : Prop where
  sound : t'.Sound
  home : t'.home = t.home
  other : ∀ place, place ≠ here ++ [.text (a.fileName j.stem)] → t'.at? place = t.at? place
  before : t.FileOrFree (here ++ [.text (a.fileName j.stem)])
  after : t'.FileOrFree (here ++ [.text (a.fileName j.stem)])

/-- The files of a live job have different names. -/
theorem IsProper.fileName_injective (hj : j.IsProper mode) {a b : Artifact} (ha : a ∈ artifacts)
    (hb : b ∈ artifacts) (h : a.fileName j.stem = b.fileName j.stem) : a = b := by
  have hsplit := congrArg FileName.split h
  rw [hj.split_fileName ha, hj.split_fileName hb] at hsplit
  have hext := congrArg Artifact.ofExtension (Prod.mk.inj hsplit).2
  rwa [Artifact.ofExtension_extension (ne_unrecognized ha),
    Artifact.ofExtension_extension (ne_unrecognized hb)] at hext

namespace ChangesOnly

variable {a : Artifact}

/-- A step of the worker touches one name of the job, and nothing under another, -/
theorem at?_eq (hj : j.IsProper mode) (h : j.ChangesOnly here a t t') (ha : a ∈ artifacts)
    {b : Artifact} (hb : b ∈ artifacts) (hne : b ≠ a) :
    t'.at? (here ++ [.text (b.fileName j.stem)]) = t.at? (here ++ [.text (b.fileName j.stem)]) := by
  rw [h.other]
  intro heq
  refine hne (hj.fileName_injective hb ha ?_)
  simpa using heq

/-- so the other files of the job are as they were, -/
theorem fileAt?_eq (hj : j.IsProper mode) (h : j.ChangesOnly here a t t') (ha : a ∈ artifacts)
    {b : Artifact} (hb : b ∈ artifacts) (hne : b ≠ a) :
    t'.fileAt? here (b.fileName j.stem) = t.fileAt? here (b.fileName j.stem) := by
  rw [Tree.fileAt?, h.at?_eq hj ha hb hne, Tree.fileAt?]

/-- and the job is at home still. -/
theorem isHoused (hj : j.IsProper mode) (h : j.ChangesOnly here a t t') (ha : a ∈ artifacts)
    (hhoused : j.IsHoused here mode t) : j.IsHoused here mode t' := by
  have hlink : ∀ target, t'.at? (here ++ [.text (a.fileName j.stem)]) ≠ some (.link target) := by
    intro target htarget
    obtain ⟨f, hf⟩ := h.after _ htarget
    cases hf
  have hspares : Tree.Spares (fun _ => False) t t' :=
    Tree.spares_of_at? h.sound h.home h.other h.before hlink id
  refine ⟨hhoused.secluded.of_spares hj.jobRoot hhoused.leads hspares,
    hhoused.leads.of_keeps hspares.sound hspares.keeps,
    fun b hb target htarget => ?_, fun name f hf hstem => ?_⟩
  · exact hhoused.noLink b hb target (hspares.links _ target htarget)
  · by_cases hname : name = a.fileName j.stem
    · exact ⟨a, ha, hname⟩
    · rw [Tree.fileAt?, h.other _ (by simpa using hname)] at hf
      exact hhoused.files name f hf hstem

end ChangesOnly

/-- The name of a file of a live job is a step of a path. -/
theorem IsProper.isStep (hj : j.IsProper mode) {a : Artifact} (ha : a ∈ artifacts) :
    Path.IsStep (a.fileName j.stem) := by
  have hextension : ∀ extension : String, '/' ∉ extension.toList →
      Path.IsStep (j.stem ++ "." ++ extension) := by
    intro extension hslash
    rw [String.append_assoc]
    refine hj.word.isStep_append _ ?_
    simpa using hslash
  cases a with
  | input => exact hj.word.isStep
  | unrecognized => exact absurd rfl (ne_unrecognized ha)
  | _ => exact hextension _ (by decide)

/-- **What writing one of the job's files has done.** -/
theorem changesOnly_write (hj : j.IsProper mode) (hhoused : j.IsHoused here mode t)
    {a : Artifact} (ha : a ∈ artifacts) {content : ByteArray} {now : Instant}
    (hok : t.write (j.path a) content now = .ok t') :
    j.ChangesOnly here a t t' ∧
      ∃ f, t'.fileAt? here (a.fileName j.stem) = some f ∧ f.content = content ∧
        (f.mode = Files.fileMode ∨ ∃ before,
          t.fileAt? here (a.fileName j.stem) = some before ∧
            f.mode = before.mode) := by
  have hfree := hhoused.leads.fileOrFree_of_write (hj.isStep ha)
    (hhoused.noLink _ ha) hok
  have hfills := Store.fills_write hhoused.leads (hj.isStep ha) hfree hok
  obtain ⟨-, -, -, fileMode', rfl, -, hmode⟩ :=
    hhoused.leads.write_eq_ok (hj.isStep ha) hfree hok
  refine ⟨⟨hfills.sound, hfills.home, hfills.other, hfree, fun o ho => ?_⟩,
    ⟨content, fileMode', now⟩, ?_, rfl, hmode⟩
  · obtain ⟨f, hf⟩ := hfills.file
    rw [hf] at ho
    cases ho
    exact ⟨f, rfl⟩
  · rw [Tree.fileAt?_eq_some_iff]
    exact Tree.at?_put_self (by simp)

/-- **One of the job's files can be removed,** and then it is gone. -/
theorem exists_remove_eq (hj : j.IsProper mode) (hhoused : j.IsHoused here mode t)
    {a : Artifact} {f : File}
    (hf : t.fileAt? here (a.fileName j.stem) = some f)
    (hr : Tree.refusal? (j.path a) = none) :
    ∃ t', t.remove (j.path a) = .ok t' ∧ j.ChangesOnly here a t t' ∧
      t'.at? (here ++ [.text (a.fileName j.stem)]) = none := by
  have hm : t.mayChange here = true := hhoused.leads.mayChange.trans hj.told.changeable
  have hgone : (t.without [here ++ [.text (a.fileName j.stem)]]).at?
      (here ++ [.text (a.fileName j.stem)]) = none := by
    rw [Tree.at?_without (by simp), if_pos (List.mem_singleton_self _)]
  refine ⟨_, hhoused.leads.remove_eq hf hr hm,
    ⟨?_, rfl, fun place hne => ?_, Tree.fileOrFree_of_fileAt? hf, ?_⟩, ?_⟩
  · refine hhoused.leads.sound.without fun place hplace => ?_
    rw [List.mem_singleton.1 hplace]
    exact ⟨f, Tree.fileAt?_eq_some_iff.1 hf⟩
  · by_cases hnil : place = []
    · simp [hnil, Tree.at?]
    · rw [Tree.at?_without hnil, if_neg (by simpa using hne)]
  · exact Tree.fileOrFree_of_at? hgone
  · exact hgone

/-- **The progress of a live job can be written,** in every phase. -/
theorem exists_write_progress (hj : j.IsProper mode) (hhoused : j.IsHoused here mode t)
    {phase : Phase} (hfiles : j.HasFiles here t phase) (content : ByteArray) (now : Instant) :
    ∃ t', t.write (j.path .progress) content now = .ok t' := by
  have hr := hj.told.refusal?_eq_none hhoused.leads
  cases hlast : phase.last? with
  | none =>
    have hm : t.mayChange here = true := hhoused.leads.mayChange.trans hj.told.changeable
    exact ⟨_, hhoused.leads.write_free hj.told.isLegal hr hm (hfiles.noProgress hlast) content now⟩
  | some last =>
    obtain ⟨f, hf, -, hmode⟩ := hfiles.progress last hlast
    have hwrite : (Object.file f).mayWrite = true := by
      rw [Object.mayWrite, Object.mode, hmode]
      decide
    exact ⟨_, hhoused.leads.write_file hr hj.searchable hf hwrite content now⟩

/-! ### Steps -/

/-- A step of the worker, of someone who calls upon the spool, or of the scheduler's operator.  The
worker tells its progress by events; a result that it cannot write stays as it is. -/
inductive Step (j : LiveJob) : World → World → Prop
  | start {s : Spool MemoryScheduler} :
    Step j ⟨s, .waiting⟩
      ⟨s.withScheduler (MemoryScheduler.start j.ticket s.scheduler).2, .started⟩
  | advance {s : Spool MemoryScheduler} {phase : Phase} (now : Instant) (progress : Progress)
    (hphase : phase = .started ∨ ∃ last, phase = .running last) :
    Step j ⟨s, phase⟩
      ⟨s.withFiles (ProgressFile.record (j.path .progress) now s.files (.advanced progress)),
        .running progress⟩
  | writeResult {s : Spool MemoryScheduler} {last : Progress} (a : Artifact)
    (ha : a ∈ Artifact.results) (content : ByteArray) (now : Instant) :
    Step j ⟨s, .running last⟩
      ⟨s.withFiles (ProgressFile.orUnchanged s.files (s.files.write (j.path a) content now)),
        .running last⟩
  | complete {s : Spool MemoryScheduler} {last : Progress} (now : Instant)
    (hall : ∀ a ∈ Artifact.results, ∃ f, s.files.file? (j.path a) = some f) :
    Step j ⟨s, .running last⟩
      ⟨s.withFiles (ProgressFile.record (j.path .progress) now s.files .completed), .completed⟩
  | removeInput {s : Spool MemoryScheduler} :
    Step j ⟨s, .completed⟩
      ⟨s.withFiles (ProgressFile.orUnchanged s.files (s.files.remove (j.path .input))), .cleaned⟩
  | finish {s : Spool MemoryScheduler} :
    Step j ⟨s, .cleaned⟩
      ⟨s.withScheduler (MemoryScheduler.finish j.ticket s.scheduler).2, .finished⟩
  | call {s : Spool MemoryScheduler} {phase : Phase} (call : Call) (hallowed : j.Allows s call) :
    Step j ⟨s, phase⟩ ⟨call.run j.config s, phase⟩
  | setAvailable {s : Spool MemoryScheduler} {phase : Phase} (available : Bool) :
    Step j ⟨s, phase⟩ ⟨s.withScheduler (MemoryScheduler.setAvailable available s.scheduler), phase⟩

section Steps

variable {s : Spool MemoryScheduler}

/-- The input is not the progress file, -/
theorem input_ne_progress : Artifact.input ≠ .progress := by decide

/-- and a result is neither. -/
theorem ne_of_mem_results {a : Artifact} (ha : a ∈ Artifact.results) :
    a ≠ .progress ∧ a ≠ .input := by
  constructor
  · rintro rfl
    simp [Artifact.results] at ha
  · rintro rfl
    simp [Artifact.results] at ha

/-- **Telling progress** keeps the worker's phase and the job's files together. -/
theorem agrees_advance (hj : j.IsProper mode) {phase : Phase} (h : j.Agrees here mode ⟨s, phase⟩)
    (now : Instant) (progress : Progress)
    (hphase : phase = .started ∨ ∃ last, phase = .running last) :
    j.Agrees here mode
      ⟨s.withFiles (ProgressFile.record (j.path .progress) now s.files (.advanced progress)),
        .running progress⟩ := by
  obtain ⟨t, ht⟩ := exists_write_progress hj h.housed h.files progress.line.toByteArray now
  have hrecord : ProgressFile.record (j.path .progress) now s.files (.advanced progress) = t := by
    rw [ProgressFile.record, ht]
    rfl
  obtain ⟨hchanges, f, hf, hcontent, hmode⟩ :=
    changesOnly_write hj h.housed mem_artifacts_progress ht
  have hinput : phase.hasInput = true := by
    rcases hphase with rfl | ⟨last, rfl⟩ <;> rfl
  -- A new file has the usual permissions, and a progress file has kept them.
  have hkept : f.mode = Files.fileMode := by
    rcases hmode with hnew | ⟨before, hbefore, hsame⟩
    · exact hnew
    · cases hlast : phase.last? with
      | none =>
        have hat := Tree.fileAt?_eq_some_iff.1 hbefore
        rw [h.files.noProgress hlast] at hat
        cases hat
      | some last =>
        obtain ⟨f', hf', -, hmode'⟩ := h.files.progress last hlast
        obtain rfl : before = f' := Option.some.inj (hbefore.symm.trans hf')
        exact hsame.trans hmode'
  rw [hrecord]
  have hsame :=
    hchanges.fileAt?_eq hj mem_artifacts_progress mem_artifacts_input input_ne_progress
  refine ⟨hchanges.isHoused hj mem_artifacts_progress h.housed, .running ?_ ?_,
    fun _ => h.held (Phase.ne_finished_of_hasInput hinput)⟩
  · exact (congrArg Option.isSome hsame).trans (h.files.input.trans hinput)
  · exact ⟨f, hf, hcontent, hkept⟩

/-- **Writing a result** keeps them together, whether it succeeds or not. -/
theorem agrees_writeResult (hj : j.IsProper mode) {last : Progress}
    (h : j.Agrees here mode ⟨s, .running last⟩) {a : Artifact} (ha : a ∈ Artifact.results)
    (content : ByteArray) (now : Instant) :
    j.Agrees here mode
      ⟨s.withFiles (ProgressFile.orUnchanged s.files (s.files.write (j.path a) content now)),
        .running last⟩ := by
  cases hwrite : s.files.write (j.path a) content now with
  | error fault => exact h
  | ok t =>
    have hmem := mem_artifacts_of_mem_results ha
    obtain ⟨hne, hne'⟩ := ne_of_mem_results ha
    obtain ⟨hchanges, -⟩ := changesOnly_write hj h.housed hmem hwrite
    have hinput := hchanges.fileAt?_eq hj hmem mem_artifacts_input hne'.symm
    have hprogress := hchanges.fileAt?_eq hj hmem mem_artifacts_progress hne.symm
    obtain ⟨f, hf, hrest⟩ := h.files.progress last rfl
    refine ⟨hchanges.isHoused hj hmem h.housed, .running ?_ ?_, h.held⟩
    · exact (congrArg Option.isSome hinput).trans h.files.input
    · exact ⟨f, hprogress.trans hf, hrest⟩

/-- **Completing** keeps them together: the progress file is gone, and all results are there. -/
theorem agrees_complete (hj : j.IsProper mode) {last : Progress}
    (h : j.Agrees here mode ⟨s, .running last⟩) (now : Instant)
    (hall : ∀ a ∈ Artifact.results, ∃ f, s.files.file? (j.path a) = some f) :
    j.Agrees here mode
      ⟨s.withFiles (ProgressFile.record (j.path .progress) now s.files .completed),
        .completed⟩ := by
  obtain ⟨f, hf, -⟩ := h.files.progress last rfl
  obtain ⟨t, ht, hchanges, hgone⟩ :=
    exists_remove_eq hj h.housed hf (hj.told.refusal?_eq_none h.housed.leads)
  have hrecord : ProgressFile.record (j.path .progress) now s.files .completed = t := by
    rw [ProgressFile.record, ht]
    rfl
  have hinput :=
    hchanges.fileAt?_eq hj mem_artifacts_progress mem_artifacts_input input_ne_progress
  rw [hrecord]
  refine ⟨hchanges.isHoused hj mem_artifacts_progress h.housed,
    .of_isLate rfl ?_ hgone fun a ha => ?_,
    fun _ => h.held (Phase.ne_finished_of_hasInput rfl)⟩
  · exact (congrArg Option.isSome hinput).trans h.files.input
  · have hmem := mem_artifacts_of_mem_results ha
    obtain ⟨f', hf'⟩ := hall a ha
    have hresult := hchanges.fileAt?_eq hj mem_artifacts_progress hmem (ne_of_mem_results ha).1
    have hfile := h.housed.leads.fileAt?_of_file? (hj.isStep hmem)
      (h.housed.noLink _ hmem) hf'
    exact congrArg Option.isSome (hresult.trans hfile)

/-- **Removing the input** keeps them together. -/
theorem agrees_removeInput (hj : j.IsProper mode) (h : j.Agrees here mode ⟨s, .completed⟩) :
    j.Agrees here mode
      ⟨s.withFiles (ProgressFile.orUnchanged s.files (s.files.remove (j.path .input))),
        .cleaned⟩ := by
  have hinput := h.files.input
  rw [show Phase.completed.hasInput = true from rfl, Option.isSome_iff_exists] at hinput
  obtain ⟨f, hf⟩ := hinput
  obtain ⟨t, ht, hchanges, hgone⟩ := exists_remove_eq hj h.housed hf hj.accepted
  have hprogress :=
    hchanges.at?_eq hj mem_artifacts_input mem_artifacts_progress input_ne_progress.symm
  have hnone : t.fileAt? here (Artifact.input.fileName j.stem) = none := by
    rw [Tree.fileAt?, hgone]
  rw [ht]
  refine ⟨hchanges.isHoused hj mem_artifacts_input h.housed,
    .of_isLate rfl (congrArg Option.isSome hnone)
      (hprogress.trans (h.files.noProgress rfl)) fun a ha => ?_,
    fun _ => h.held (Phase.ne_finished_of_hasInput rfl)⟩
  · have hmem := mem_artifacts_of_mem_results ha
    have hresult := hchanges.fileAt?_eq hj mem_artifacts_input hmem (ne_of_mem_results ha).2
    exact (congrArg Option.isSome hresult).trans (h.files.results rfl a ha)

/-- **Every step keeps phase, files and ticket together.** -/
theorem agrees_step (hj : j.IsProper mode) {w w' : World} (h : j.Agrees here mode w)
    (hstep : j.Step w w') : j.Agrees here mode w' := by
  cases hstep with
  | start =>
    have hheld := h.held (Phase.ne_finished_of_hasInput rfl)
    exact ⟨h.housed, .of_isEarly rfl h.files.input (h.files.noProgress rfl) (h.files.noResults rfl),
      fun _ => MemoryScheduler.holds_start j.ticket hheld⟩
  | advance now progress hphase => exact agrees_advance hj h now progress hphase
  | writeResult a ha content now => exact agrees_writeResult hj h ha content now
  | complete now hall => exact agrees_complete hj h now hall
  | removeInput => exact agrees_removeInput hj h
  | finish =>
    exact ⟨h.housed, .of_isLate rfl h.files.input (h.files.noProgress rfl) (h.files.results rfl),
      fun hne => absurd rfl hne⟩
  | call call hallowed => exact agrees_call hj h hallowed
  | setAvailable available =>
    exact ⟨h.housed, h.files,
      fun hphase => MemoryScheduler.holds_setAvailable available (h.held hphase)⟩

/-- **So does every run.** -/
theorem agrees_of_run (hj : j.IsProper mode) {w w' : World} (h : j.Agrees here mode w)
    (hrun : Relation.ReflTransGen j.Step w w') : j.Agrees here mode w' := by
  induction hrun with
  | refl => exact h
  | tail _ hstep ih => exact agrees_step hj ih hstep

end Steps

end LiveJob
end JobSpool
