/-
# When a sweep loses the input of a job

`submit_text` and `reconcile` at the same time: `SPEC_FULL.md`, 5 and E8.

A sweep decides by what the scheduler answered before it listed the folder, and a submission has
its input in the folder before the scheduler knows of it.  So a sweep that asks too early, lists too
late and removes too late takes the input of a job that is queued: `Race.Overtakes` says that it
asked before the command was handed to the scheduler, listed the folder after the input was created,
and removed the input after it was filled.

That is the only way to lose it.  `Race.input_survives_unless_overtaken` says that in every order
of the steps a submission that succeeds has its ticket held and not started, and its input there
with its full content, unless the sweep has overtaken it in this way; a submission that the medium
has failed answers with an error, and is not spoken of.  The invariant is
`Race.Standing`, which says of each file that the sweep is about to remove how it came to be chosen.
-/

import JobSpool.Proofs.RaceSteps
import Mathlib.Data.List.Induction

namespace JobSpool

open Files (Tree Place File Object Medium)

namespace Files.Tree

/-- Does a change concern one place alone, and is there a file then, or nothing? -/
structure Touches (place : Place) (t t' : Tree) : Prop where
  spares : Spares (· ≠ place) t t'
  free : t'.FileOrFree place

variable {t t' t'' : Tree} {place : Place}

/-- Filling a place of a file, or a free one, touches that place alone. -/
theorem Touches.of_fills (h : Fills place t t') (hfree : t.FileOrFree place) :
    Touches place t t' where
  spares := h.spares hfree fun hne => hne rfl
  free o ho := by
    obtain ⟨f, hf⟩ := h.file
    rw [hf] at ho
    cases ho
    exact ⟨f, rfl⟩

/-- Doing nothing touches whatever place it is. -/
theorem Touches.refl (hs : t.Sound) (hfree : t.FileOrFree place) : Touches place t t :=
  ⟨Spares.refl _ hs, hfree⟩

/-- Touching a place twice is touching it. -/
theorem Touches.trans (h : Touches place t t') (h' : Touches place t' t'') :
    Touches place t t'' :=
  ⟨h.spares.trans h'.spares, h'.free⟩

/-- Touching a file does not change where the path of a folder leads. -/
theorem Touches.leads (h : Touches place t t') {folder : Path} {here : Place} {mode : Nat}
    (hl : t.Leads folder here mode) : t'.Leads folder here mode :=
  hl.of_keeps h.spares.sound h.spares.keeps

/-- No folder and no link comes to a place by touching a file. -/
theorem Touches.fileOrFree (h : Touches place t t') {other : Place} (hfree : t.FileOrFree other) :
    t'.FileOrFree other := by
  by_cases hother : other = place
  · exact hother ▸ h.free
  · intro o ho
    rw [h.spares.same other hother] at ho
    exact hfree o ho

end Files.Tree

namespace Store

variable {t t' : Tree} {folder : Path} {place : Place} {mode : Nat} {e : Entry}

/-- An entry of the folder is one still when a file was touched. -/
theorem IsEntryIn.of_touches {q : Place} (h : IsEntryIn t folder place e)
    (htouches : Tree.Touches q t t') : IsEntryIn t' folder place e :=
  ⟨h.path, h.isStep, htouches.fileOrFree h.free⟩

/-- **Removing a file of a listing** concerns its place alone. -/
theorem touches_removeEntry (hl : t.Leads folder place mode) (he : IsEntryIn t folder place e) :
    Tree.Touches (placeIn place e) t (removeEntry e t).2 := by
  have htakes := takesAway_removeEntry hl he
  refine ⟨htakes.spares hl.sound fun e' he' hne => ?_, (htakes.isEntryIn he).free⟩
  rw [List.mem_singleton.1 he'] at hne
  exact hne rfl

section Filling

variable {name : String}

/-- **Removing a file right in a folder** concerns its place alone, -/
theorem touches_remove (hl : t.Leads folder place mode) (hn : Path.IsStep name)
    (hfree : t.FileOrFree (place ++ [.text name])) (hok : t.remove (folder.join name) = .ok t') :
    Tree.Touches (place ++ [.text name]) t t' := by
  obtain ⟨⟨f, hf⟩, rfl⟩ := hl.remove_eq_ok hn hfree hok
  have hfiles : t.AllFiles [place ++ [.text name]] := fun q hq =>
    ⟨f, List.mem_singleton.1 hq ▸ Tree.fileAt?_eq_some_iff.1 hf⟩
  exact ⟨Tree.spares_without hl.sound hfiles fun q hq hne => hne (List.mem_singleton.1 hq),
    fun o ho => hfree o (Tree.at?_of_at?_without ho)⟩

/-- and so does writing one that is broken off. -/
theorem touches_breakOff (hl : t.Leads folder place mode) (hn : Path.IsStep name)
    (hfree : t.FileOrFree (place ++ [.text name])) (medium : Medium) :
    Tree.Touches (place ++ [.text name]) t (medium.breakOff t (folder.join name)) := by
  rcases breakOff_cases hl hn hfree medium with hsame | ⟨f, f', hf, hleft⟩
  · rw [hsame]
    exact .refl hl.sound hfree
  · have hlegal := hl.sound.isLegal (Tree.fileAt?_eq_some_iff.1 hf)
    rw [hleft]
    exact .of_fills (Tree.fills_put hl.sound hl.at? hlegal hfree f') hfree

end Filling

/-- A folder that is there is all that is made sure of. -/
theorem ensureFolder_of_leads {s : Store} {p : Principal} (hl : t.Leads (s.folder p) place mode)
    (medium : Medium) : s.ensureFolder p t medium = (.ok (s.folder p), t) := by
  unfold ensureFolder
  dsimp only
  rw [if_pos hl.isFolder]

end Store

namespace Spool

variable {t t' : Tree} {folder : Path} {place : Place} {mode : Nat} {name : String}

/-- **Filling an input** concerns its place alone.  If it succeeds the input has its content, also
if the file was gone in between. -/
theorem fill_writeInput_cases (hl : t.Leads folder place mode) (hn : Path.IsStep name)
    (hfree : t.FileOrFree (place ++ [.text name])) (content : ByteArray) (now : Instant)
    (medium : Medium) : ∃ answer t', fill (folder.join name)
        (fun input t => Store.writeInput input content now t medium) t medium = (answer, t') ∧
      Tree.Touches (place ++ [.text name]) t t' ∧
      (answer = .ok () → t'.contentAt? (place ++ [.text name]) = some content) := by
  have hbroken := Store.touches_breakOff hl hn hfree medium
  rcases fill_cases (folder.join name) (fun input t => Store.writeInput input content now t medium)
      t medium with ⟨t', hwrite, heq⟩ | ⟨cause, heq, -⟩ | ⟨cause, t', hremove, heq⟩
  · exact ⟨.ok (), t', heq, .of_fills (Store.fills_writeInput hl hn hfree hwrite) hfree,
      fun _ => (Store.filled_writeInput hl hfree hn hwrite).content⟩
  · exact ⟨.error cause, _, heq, hbroken, fun h => by cases h⟩
  · have hremoved := Store.touches_remove (hbroken.leads hl) hn hbroken.free hremove
    exact ⟨.error cause, t', heq, hbroken.trans hremoved, fun h => by cases h⟩

end Spool

namespace Race

/-! ### How an input is lost -/

/-- The input that the submission has created, unless it has failed since. -/
def SubmissionStage.input? : SubmissionStage → Option Path
  | created _ input => some input
  | filled _ input => some input
  | done (.ok job) => some job.inputPath
  | _ => none

/-- The input that the submission has filled. -/
def SubmissionStage.filledInput? : SubmissionStage → Option Path
  | filled _ input => some input
  | done (.ok job) => some job.inputPath
  | _ => none

section Orders

variable (r : Race) (s : Spool MemoryScheduler) (order : List Party)

/-- Was the sweep told that nothing is held, while the scheduler did not know of the job? -/
def AskedEarly : Prop :=
  ∃ before, before ++ [.sweeper] <+: order ∧ (r.run s before).sweep = .waiting ∧
    Spool.HoldsNothing (MemoryScheduler.pending r.sweptAt (r.run s before).scheduler).1 ∧
    ∀ job, (r.run s before).submission ≠ .done (.ok job)

/-- Did the sweep list the folder once the input had been created? -/
def ListedLate (input : Path) : Prop :=
  ∃ before answer, before ++ [.sweeper] <+: order ∧ (r.run s before).sweep = .asked answer ∧
    (r.run s before).submission.input? = some input

/-- Did the sweep remove the input once it had been filled? -/
def RemovedLate (input : Path) : Prop :=
  ∃ before answer e doomed, before ++ [.sweeper] <+: order ∧
    (r.run s before).sweep = .removing answer (e :: doomed) ∧ e.path = input ∧
    (r.run s before).submission.filledInput? = some input

/-- Has the sweep overtaken the submission? -/
structure Overtakes (input : Path) : Prop where
  asked : r.AskedEarly s order
  listed : r.ListedLate s order input
  removed : r.RemovedLate s order input

end Orders

variable {r : Race} {s : Spool MemoryScheduler} {order : List Party} {input : Path}

/-- A sweep that has asked early has done so after more steps, too. -/
theorem AskedEarly.mono (h : r.AskedEarly s order) (more : List Party) :
    r.AskedEarly s (order ++ more) := by
  obtain ⟨before, hbefore, hrest⟩ := h
  exact ⟨before, hbefore.trans (List.prefix_append _ _), hrest⟩

/-- A sweep that has listed late has done so after more steps, too. -/
theorem ListedLate.mono (h : r.ListedLate s order input) (more : List Party) :
    r.ListedLate s (order ++ more) input := by
  obtain ⟨before, answer, hbefore, hrest⟩ := h
  exact ⟨before, answer, hbefore.trans (List.prefix_append _ _), hrest⟩

/-- A sweep that has overtaken the submission has done so after more steps, too. -/
theorem Overtakes.mono (h : r.Overtakes s order input) (more : List Party) :
    r.Overtakes s (order ++ more) input := by
  obtain ⟨hasked, hlisted, before, answer, e, doomed, hbefore, hrest⟩ := h
  exact ⟨hasked.mono more, hlisted.mono more, before, answer, e, doomed,
    hbefore.trans (List.prefix_append _ _), hrest⟩

/-! ### The invariant -/

/-- Is an input right in the folder, under a word, where a file stands or nothing? -/
structure Lies (r : Race) (t : Tree) (input : Path) (place : Place) (mode : Nat) (name : String) :
    Prop where
  leads : t.Leads r.folder place mode
  word : IsWord name
  path : input = r.folder.join name
  free : t.FileOrFree (place ++ [.text name])
  search : (Object.folder mode).maySearch = true
  accepted : Tree.refusal? (r.folder.join name) = none

/-- An input lies where it did when a file was touched. -/
theorem Lies.of_touches {t t' : Tree} {place q : Place} {mode : Nat} {name : String}
    (h : r.Lies t input place mode name) (htouches : Tree.Touches q t t') :
    r.Lies t' input place mode name :=
  { h with leads := htouches.leads h.leads, free := htouches.fileOrFree h.free }

/-- What is known of the two parties, whatever steps they have taken so far. -/
structure Standing (r : Race) (s : Spool MemoryScheduler) (order : List Party) (w : World) : Prop
    where
  sound : w.files.Sound
  /-- A job that was submitted has a ticket that has not started. -/
  ticket : ∀ job, w.submission = .done (.ok job) →
    ∃ h ∈ w.scheduler.held, job.ticket = some h.ticket ∧ h.executing = false
  /-- A sweep that goes on has found the folder, -/
  found : (∃ answer, w.sweep = .asked answer) ∨
    (∃ answer doomed, w.sweep = .removing answer doomed) →
      ∃ place mode, w.files.Leads r.folder place mode
  /-- and if it was told that nothing is held, it was told so early. -/
  early : ∀ answer, w.sweep = .asked answer → Spool.HoldsNothing answer → r.AskedEarly s order
  /-- What is to be removed are files of the folder. -/
  entries : ∀ answer doomed place mode, w.sweep = .removing answer doomed →
    w.files.Leads r.folder place mode → ∀ e ∈ doomed, Store.IsEntryIn w.files r.folder place e
  /-- They are all still there, as long as nothing is submitted. -/
  present : w.submission = .waiting → ∀ answer doomed place mode,
    w.sweep = .removing answer doomed → w.files.Leads r.folder place mode →
      (doomed.map (·.fileName)).Nodup ∧ ∀ e ∈ doomed, w.files.at? (Store.placeIn place e) ≠ none
  /-- The input is in the folder.  If it is to be removed, the sweep had asked early and listed
  late; and once it is filled it has its content, unless the sweep has overtaken it. -/
  input : ∀ input, w.submission.input? = some input → ∃ place mode name,
    r.Lies w.files input place mode name ∧
    (∀ answer doomed, w.sweep = .removing answer doomed → ∀ e ∈ doomed, e.fileName = name →
      r.AskedEarly s order ∧ r.ListedLate s order input) ∧
    (w.submission.filledInput? = some input →
      w.files.contentAt? (place ++ [.text name]) = some r.content ∨ r.Overtakes s order input)

namespace Standing

variable {w : World}

/-- Before the first step nothing is held and nothing is to be removed. -/
theorem start (hs : s.files.Sound) : Standing r s [] (.start s) where
  sound := hs
  ticket _ h := by cases h
  found h := by
    rcases h with ⟨_, h⟩ | ⟨_, _, h⟩ <;> cases h
  early _ h := by cases h
  entries _ _ _ _ h := by cases h
  present _ _ _ _ _ h := by cases h
  input _ h := by cases h

/-- What stands after some steps stands after more of them, if the world is the same. -/
theorem mono (h : Standing r s order w) (more : List Party) : Standing r s (order ++ more) w where
  sound := h.sound
  ticket := h.ticket
  found := h.found
  early answer hasked hnothing := (h.early answer hasked hnothing).mono more
  entries := h.entries
  present := h.present
  input input hinput := by
    obtain ⟨place, mode, name, hlies, hdoomed, hfilled⟩ := h.input input hinput
    refine ⟨place, mode, name, hlies, fun answer doomed hsweep e he hname => ?_, fun hfull => ?_⟩
    · obtain ⟨hasked, hlisted⟩ := hdoomed answer doomed hsweep e he hname
      exact ⟨hasked.mono more, hlisted.mono more⟩
    · exact (hfilled hfull).imp_right fun hover => hover.mono more

/-! ### Steps of the sweep -/

/-- The sweep finds the folder where the submission has its own. -/
theorem folder_sweepConfig (r : Race) : r.sweepConfig.store.folder r.owner = r.folder := by
  rw [r.shared]
  rfl

/-- A sweep that ends changes nothing. -/
theorem sweep_done (h : Standing r s order w) : Standing r s order { w with sweep := .done } where
  sound := h.sound
  ticket := h.ticket
  found hsweep := by
    rcases hsweep with ⟨_, hsweep⟩ | ⟨_, _, hsweep⟩ <;> cases hsweep
  early _ hsweep := by cases hsweep
  entries _ _ _ _ hsweep := by cases hsweep
  present _ _ _ _ _ hsweep := by cases hsweep
  input input hinput := by
    obtain ⟨place, mode, name, hlies, -, hfilled⟩ := h.input input hinput
    exact ⟨place, mode, name, hlies, (fun _ _ hsweep => by cases hsweep), hfilled⟩

/-- **The sweep asks.**  It is told that nothing is held only while nothing is. -/
theorem sweep_asks (h : Standing r s order (r.run s order))
    (hsweep : (r.run s order).sweep = .waiting)
    (hfolder : (r.run s order).files.isFolder r.folder = true) :
    Standing r s (order ++ [.sweeper]) { r.run s order with
      sweep := .asked (MemoryScheduler.pending r.sweptAt (r.run s order).scheduler).1 } where
  sound := h.sound
  ticket := h.ticket
  found _ := Tree.exists_leads_of_isFolder h.sound hfolder
  early answer hasked hnothing := by
    cases hasked
    refine ⟨order, List.prefix_refl _, hsweep, hnothing, fun job hjob => ?_⟩
    obtain ⟨held, hmem, -, -⟩ := h.ticket job hjob
    exact MemoryScheduler.not_holdsNothing r.sweptAt ⟨held, hmem, rfl⟩ hnothing
  entries _ _ _ _ hremoving := by cases hremoving
  present _ _ _ _ _ hremoving := by cases hremoving
  input input hinput := by
    obtain ⟨place, mode, name, hlies, -, hfilled⟩ := (h.mono [.sweeper]).input input hinput
    exact ⟨place, mode, name, hlies, (fun _ _ hremoving => by cases hremoving), hfilled⟩

/-- **The sweep lists the folder.**  It is to remove the input only if the input is in the listing
and it was told that nothing is held. -/
theorem sweep_lists (h : Standing r s order (r.run s order))
    {answer : Except SchedulerError PendingQueue} {entries : List Entry}
    (hsweep : (r.run s order).sweep = .asked answer)
    (hlist : Store.list r.folder (r.run s order).files = .ok entries) :
    Standing r s (order ++ [.sweeper]) { r.run s order with
      sweep := .removing answer (Spool.sweptFiles r.sweepConfig
        (Spool.policyOf r.sweepConfig r.sweptAt answer) entries) } where
  sound := h.sound
  ticket := h.ticket
  found _ := h.found (Or.inl ⟨answer, hsweep⟩)
  early _ hasked := by cases hasked
  entries answer' doomed place mode hremoving hl := by
    cases hremoving
    exact fun e he => Store.isEntryIn_of_mem_list hl hlist (Spool.mem_of_mem_sweptFiles he)
  present _ answer' doomed place mode hremoving hl := by
    cases hremoving
    refine ⟨Spool.nodup_sweptFiles _ _ (Store.nodup_list hl hlist), fun e he hnone => ?_⟩
    obtain ⟨name, f, hf, rfl⟩ := (Store.mem_list_iff hl hlist).1 (Spool.mem_of_mem_sweptFiles he)
    have hat := Tree.fileAt?_eq_some_iff.1 (Tree.shownFile?_eq_some_iff.1 hf).2
    rw [Store.placeIn, Entry.fileName_ofName, hat] at hnone
    cases hnone
  -- Here the sweep makes its choice, after its question and with the input in the listing.
  input input hinput := by
    obtain ⟨place, mode, name, hlies, -, hfilled⟩ := (h.mono [.sweeper]).input input hinput
    refine ⟨place, mode, name, hlies, fun answer' doomed hremoving e he hname => ?_, hfilled⟩
    cases hremoving
    have hswept := (Spool.mem_sweptFiles_iff hlies.leads hlist).1 (List.mem_map_of_mem he)
    obtain ⟨-, -, -, hkind⟩ := hswept
    rw [hname, hlies.word.split_eq] at hkind
    have hlisted : r.ListedLate s (order ++ [.sweeper]) input :=
      ⟨order, answer, List.prefix_refl _, hsweep, hinput⟩
    exact ⟨(h.early answer hsweep hkind).mono _, hlisted⟩

/-- **The sweep removes a file.**  If it is the input, the sweep has overtaken the submission. -/
theorem sweep_removes (h : Standing r s order (r.run s order))
    {answer : Except SchedulerError PendingQueue} {e : Entry} {doomed : List Entry}
    (hsweep : (r.run s order).sweep = .removing answer (e :: doomed)) :
    Standing r s (order ++ [.sweeper]) { r.run s order with
      files := (Store.removeEntry e (r.run s order).files).2
      sweep := .removing answer doomed } := by
  obtain ⟨here, mode, hl⟩ := h.found (Or.inr ⟨answer, _, hsweep⟩)
  have he := h.entries answer _ here mode hsweep hl e List.mem_cons_self
  have htouches := Store.touches_removeEntry hl he
  have hl' := htouches.leads hl
  refine ⟨htouches.spares.sound, h.ticket, fun _ => ⟨here, mode, hl'⟩, ?_, ?_, ?_, ?_⟩
  -- The sweep is past its question.
  · intro _ hasked
    cases hasked
  -- The files that are still to be removed are entries of the folder,
  · intro answer' doomed' place mode' hremoving hleads e' he'
    cases hremoving
    obtain rfl := hl'.place_unique hleads
    have hbefore := h.entries answer _ place mode hsweep hl e' (List.mem_cons_of_mem _ he')
    exact hbefore.of_touches htouches
  -- and there, as long as nothing was submitted.
  · intro hwaiting answer' doomed' place mode' hremoving hleads
    cases hremoving
    obtain rfl := hl'.place_unique hleads
    obtain ⟨hnodup, hpresent⟩ := h.present hwaiting answer _ place mode hsweep hl
    rw [List.map_cons, List.nodup_cons] at hnodup
    refine ⟨hnodup.2, fun e' he' => ?_⟩
    have hne : Store.placeIn place e' ≠ Store.placeIn place e := by
      intro hsame
      have hname : e'.fileName = e.fileName := by simpa [Store.placeIn] using hsame
      exact hnodup.1 (hname ▸ List.mem_map_of_mem he')
    rw [htouches.spares.same _ hne]
    exact hpresent e' (List.mem_cons_of_mem _ he')
  -- The input is there as it was, unless it is the file that was removed.
  · intro input hinput
    obtain ⟨place, mode', name, hlies, hdoomed, hfilled⟩ := h.input input hinput
    refine ⟨place, mode', name, hlies.of_touches htouches,
      fun answer' doomed' hremoving e' he' hname => ?_, fun hfull => ?_⟩
    · cases hremoving
      obtain ⟨hasked, hlisted⟩ := hdoomed answer _ hsweep e' (List.mem_cons_of_mem _ he') hname
      exact ⟨hasked.mono _, hlisted.mono _⟩
    · obtain rfl := hl.place_unique hlies.leads
      -- If it is, all three marks of overtaking are at hand.
      by_cases hname : e.fileName = name
      · obtain ⟨hasked, hlisted⟩ := hdoomed answer _ hsweep e List.mem_cons_self hname
        have hpath : e.path = input := by rw [he.path, hname, hlies.path]
        exact Or.inr ⟨hasked.mono _, hlisted.mono _, order, answer, e, doomed, List.prefix_refl _,
          hsweep, hpath, hfull⟩
      · have hne : place ++ [.text name] ≠ Store.placeIn place e := by
          intro hsame
          exact hname (by simpa [Store.placeIn] using hsame.symm)
        rw [Tree.contentAt?_congr (htouches.spares.same _ hne)]
        exact (hfilled hfull).imp_right fun hover => hover.mono _

/-- **Each step of the sweep keeps the invariant.** -/
theorem step_sweeper (h : Standing r s order (r.run s order)) :
    Standing r s (order ++ [.sweeper]) (r.sweepOn (r.run s order)) := by
  cases hsweep : (r.run s order).sweep with
  | waiting =>
    cases hfolder : (r.run s order).files.isFolder r.folder with
    | false =>
      rw [sweepOn_of_not_isFolder hsweep (by rw [folder_sweepConfig, hfolder])]
      exact (h.mono _).sweep_done
    | true =>
      rw [sweepOn_of_waiting hsweep (by rw [folder_sweepConfig, hfolder])]
      exact h.sweep_asks hsweep hfolder
  | asked answer =>
    cases hlist : Store.list r.folder (r.run s order).files with
    | error cause =>
      rw [sweepOn_of_list_error hsweep (by rw [folder_sweepConfig, hlist])]
      exact (h.mono _).sweep_done
    | ok entries =>
      rw [sweepOn_of_list_ok hsweep (by rw [folder_sweepConfig, hlist])]
      exact h.sweep_lists hsweep hlist
  | removing answer doomed =>
    cases doomed with
    | nil =>
      rw [sweepOn_of_removing_nil hsweep]
      exact (h.mono _).sweep_done
    | cons e doomed =>
      rw [sweepOn_of_removing_cons hsweep]
      exact h.sweep_removes hsweep
  | done =>
    rw [sweepOn_of_done hsweep]
    exact h.mono _

/-! ### Steps of the submission -/

/-- Folders may be made before anything is submitted, but only where the sweep has found none. -/
theorem with_files (h : Standing r s order w) (hwaiting : w.submission = .waiting) {t : Tree}
    (hs : t.Sound) (hsame : ∀ place mode, w.files.Leads r.folder place mode → t = w.files) :
    Standing r s order { w with files := t } := by
  have hfound : ∀ answer doomed, w.sweep = .removing answer doomed → t = w.files := by
    intro answer doomed hsweep
    obtain ⟨place, mode, hl⟩ := h.found (Or.inr ⟨answer, doomed, hsweep⟩)
    exact hsame place mode hl
  refine ⟨hs, h.ticket, fun hsweep => ?_, h.early, ?_, ?_, fun input hinput => ?_⟩
  · obtain ⟨place, mode, hl⟩ := h.found hsweep
    exact ⟨place, mode, (hsame place mode hl).symm ▸ hl⟩
  · intro answer doomed place mode hsweep
    rw [hfound answer doomed hsweep]
    exact h.entries answer doomed place mode hsweep
  · intro hwaits answer doomed place mode hsweep
    rw [hfound answer doomed hsweep]
    exact h.present hwaits answer doomed place mode hsweep
  · rw [hwaiting] at hinput
    cases hinput

/-- A submission that fails leaves nothing to be lost. -/
theorem submission_fails (h : Standing r s order w) (cause : Error) :
    Standing r s order { w with submission := .done (.error cause) } where
  sound := h.sound
  ticket _ hjob := by cases hjob
  found := h.found
  early := h.early
  entries := h.entries
  present hwaiting := by cases hwaiting
  input _ hinput := by cases hinput

/-- After a step that concerns one place it is the input that has to be told anew. -/
theorem submission_touches (h : Standing r s order w) {t' : Tree} {q : Place}
    (htouches : Tree.Touches q w.files t') {stage : SubmissionStage} (hstage : stage ≠ .waiting)
    (hdone : ∀ job, stage ≠ .done (.ok job))
    (hinput : ∀ input, stage.input? = some input → ∃ place mode name,
      r.Lies t' input place mode name ∧
      (∀ answer doomed, w.sweep = .removing answer doomed → ∀ e ∈ doomed, e.fileName = name →
        r.AskedEarly s order ∧ r.ListedLate s order input) ∧
      (stage.filledInput? = some input →
        t'.contentAt? (place ++ [.text name]) = some r.content ∨ r.Overtakes s order input)) :
    Standing r s order { w with files := t', submission := stage } where
  sound := htouches.spares.sound
  ticket job hjob := absurd hjob (hdone job)
  found hsweep := by
    obtain ⟨place, mode, hl⟩ := h.found hsweep
    exact ⟨place, mode, htouches.leads hl⟩
  early := h.early
  entries answer doomed place mode hsweep hl' e he := by
    obtain ⟨here, mode', hl⟩ := h.found (Or.inr ⟨answer, doomed, hsweep⟩)
    obtain rfl := (htouches.leads hl).place_unique hl'
    exact (h.entries answer doomed place mode' hsweep hl e he).of_touches htouches
  present hwaiting := absurd hwaiting hstage
  input := hinput

/-- **The submission creates its input.**  Nothing that the sweep is to remove has its name, since
everything that it is to remove is there. -/
theorem submission_creates (h : Standing r s order w) (hwaiting : w.submission = .waiting)
    {t' : Tree} {name : String} (hword : IsWord name)
    (hcreate : w.files.create (r.folder.join name) r.moment.now = .ok t') (folder : Path) :
    Standing r s order
      { w with files := t', submission := .created folder (r.folder.join name) } := by
  obtain ⟨place, mode, hl, hchange, hnone, hlegal, haccepted, hput⟩ :=
    Tree.create_eq_ok h.sound (Spool.text_folder_ne_nil r.config r.owner) hword.isStep hcreate
  have hfree := Tree.fileOrFree_of_at? hnone
  have htouches : Tree.Touches (place ++ [.text name]) w.files t' :=
    hput ▸ .of_fills (Tree.fills_put hl.sound hl.at? hlegal hfree _) hfree
  refine h.submission_touches htouches (fun hstage => by cases hstage)
    (fun _ hstage => by cases hstage) fun input hinput => ?_
  cases hinput
  have hsearch : (Object.folder mode).maySearch = true := by
    rw [hl.mayChange, Bool.and_eq_true] at hchange
    exact hchange.2
  refine ⟨place, mode, name, ⟨htouches.leads hl, hword, rfl, htouches.free, hsearch, haccepted⟩,
    fun answer doomed hsweep e he hname => ?_, fun hfilled => by cases hfilled⟩
  have hpresent := (h.present hwaiting answer doomed place mode hsweep hl).2 e he
  rw [Store.placeIn, hname] at hpresent
  exact absurd hnone hpresent

/-- **The submission fills its input,** or gives it up. -/
theorem submission_fills (h : Standing r s order w) {folder input : Path}
    (hcreated : w.submission = .created folder input) :
    Standing r s order (r.fillInput folder input w) := by
  obtain ⟨place, mode, name, hlies, hdoomed, -⟩ := h.input input (by rw [hcreated]; rfl)
  obtain ⟨answer, t', hfill, htouches, hcontent⟩ := Spool.fill_writeInput_cases hlies.leads
    hlies.word.isStep hlies.free r.content r.moment.now r.medium
  rw [← hlies.path] at hfill
  have hwrite : Spool.fill input r.write w.files r.medium = (answer, t') := hfill
  unfold fillInput
  rw [hwrite]
  cases answer with
  | error cause =>
    exact h.submission_touches htouches (fun hstage => by cases hstage)
      (fun _ hstage => by cases hstage) fun _ hinput => by cases hinput
  | ok _ =>
    refine h.submission_touches htouches (fun hstage => by cases hstage)
      (fun _ hstage => by cases hstage) fun input' hinput => ?_
    cases hinput
    exact ⟨place, mode, name, hlies.of_touches htouches, hdoomed, fun _ => Or.inl (hcontent rfl)⟩

/-- **The scheduler takes the job,** and holds its ticket from then on, or the submission fails. -/
theorem submission_schedules (h : Standing r s order w) {folder input : Path}
    (hfilled : w.submission = .filled folder input) :
    Standing r s order (r.schedule folder input w) := by
  unfold schedule
  rcases Submission.schedule_cases r.config r.moment.now r.owner .profile folder input
    ⟨w.files, w.scheduler⟩ with
    ⟨cause, hrefused⟩ | ⟨job, scheduler, htaken, -, hticket, hheld⟩
  · rw [hrefused]
    exact h.submission_fails _
  · have hinputPath := Submission.inputPath_of_schedule htaken
    rw [htaken]
    refine ⟨h.sound, fun job' hjob => ?_, h.found, h.early, h.entries, fun hwaiting => ?_,
      fun input' hinput => ?_⟩
    · cases hjob
      refine ⟨_, ?_, hticket, rfl⟩
      exact hheld ▸ List.mem_append_right _ (List.mem_singleton_self _)
    · cases hwaiting
    · cases hinput
      rw [hinputPath]
      obtain ⟨place, mode, name, hlies, hdoomed, hcontent⟩ :=
        h.input input (by rw [hfilled]; rfl)
      exact ⟨place, mode, name, hlies, hdoomed, fun _ => hcontent (by rw [hfilled]; rfl)⟩

/-- **Each step of the submission keeps the invariant.** -/
theorem step_submitter (h : Standing r s order w) : Standing r s order (r.submit w) := by
  cases hstage : w.submission with
  | waiting =>
    rw [submit_of_waiting hstage]
    have hsound := r.config.store.sound_ensureFolder r.owner h.sound r.medium
    -- Making sure of a folder that is there changes nothing, so the sweep's folder stays.
    have hsame : ∀ place mode, w.files.Leads r.folder place mode →
        (r.config.store.ensureFolder r.owner w.files r.medium).2 = w.files := fun place mode hl =>
      congrArg Prod.snd (Store.ensureFolder_of_leads hl r.medium)
    have hmade := h.with_files hstage hsound hsame
    unfold create
    split
    · exact h.submission_fails _
    · cases hensure : r.config.store.ensureFolder r.owner w.files r.medium with
      | mk answer t =>
        rw [hensure] at hmade
        cases answer with
        | error cause => exact hmade.submission_fails _
        | ok folder =>
          obtain rfl := Store.ensureFolder_eq_ok hensure
          dsimp only
          split
          · exact hmade.submission_fails _
          · rename_i input t' hunique
            split
            · exact hmade.submission_fails _
            · obtain ⟨name, hword, -, rfl, hcreate⟩ := Store.exists_of_createUnique
                (JobKind.isWord_nameStart .profile) r.plain hunique
              exact hmade.submission_creates hstage hword hcreate _
  | created folder input =>
    rw [submit_of_created hstage]
    exact h.submission_fills hstage
  | filled folder input =>
    rw [submit_of_filled hstage]
    exact h.submission_schedules hstage
  | done answer =>
    rw [submit_of_done hstage]
    exact h

end Standing

/-- **The invariant holds after every sequence of steps.** -/
theorem standing_run (hs : s.files.Sound) (r : Race) (order : List Party) :
    Standing r s order (r.run s order) := by
  induction order using List.reverseRecOn with
  | nil => exact Standing.start hs
  | append_singleton order party ih =>
    rw [run_concat]
    cases party with
    | submitter => exact (ih.mono [.submitter]).step_submitter
    | sweeper => exact ih.step_sweeper

/-! ### The outcome -/

/-- **An input survives, unless the sweep has overtaken its submission.**  In every order of the
steps, a submission that has succeeded has a ticket that is held and has not started, and its input
is there with its full content; unless the sweep asked before the scheduler knew of the job, listed
the folder after the input was created, and removed the input after it was filled. -/
theorem input_survives_unless_overtaken (r : Race) {s : Spool MemoryScheduler}
    (hs : s.files.Sound) (order : List Party) {job : Job}
    (hjob : (r.run s order).submission = .done (.ok job)) :
    (∃ h ∈ (r.run s order).scheduler.held, job.ticket = some h.ticket ∧ h.executing = false) ∧
      ((∃ f, (r.run s order).files.file? job.inputPath = some f ∧ f.content = r.content) ∨
        r.Overtakes s order job.inputPath) := by
  have h := standing_run hs r order
  refine ⟨h.ticket job hjob, ?_⟩
  obtain ⟨place, mode, name, hlies, -, hcontent⟩ := h.input job.inputPath (by rw [hjob]; rfl)
  rcases hcontent (by rw [hjob]; rfl) with hcontent | hover
  · left
    have hfilled : Store.Filled (r.run s order).files r.folder place mode name r.content :=
      ⟨hlies.leads, hcontent⟩
    obtain ⟨f, hf, hholds⟩ := hfilled.exists_fileAt?
    refine ⟨f, ?_, hholds⟩
    have hlocate := hlies.leads.locate_file hf hlies.accepted hlies.search .target
    rw [hlies.path, Tree.file?, Tree.find, hlocate]
  · exact Or.inr hover

/-! ### A folder that is swept while something is submitted -/

/-- The job that was submitted. -/
def SubmissionStage.job? : SubmissionStage → Option Job
  | done (.ok job) => some job
  | _ => none

/-- A submission tells a job only when it has succeeded. -/
theorem submission_of_job? {stage : SubmissionStage} {job : Job} (h : stage.job? = some job) :
    stage = .done (.ok job) := by
  rcases stage with _ | _ | _ | _ | job'
  · cases h
  · cases h
  · cases h
  · cases h
  · cases h
    rfl

/-- A job root with one principal's empty folder, and no tickets. -/
def emptyFolder : Spool MemoryScheduler where
  files := {
    entries := [
      ([.text "jobs"], .folder Store.folderMode),
      ([.text "jobs", .text "t"], .folder Store.folderMode)]
    home := [] }
  scheduler := {}

/-- A text is submitted, and the folder is swept by someone else. -/
def encounter : Race where
  owner := ⟨"t", by decide⟩
  config := .withJobRoot ⟨"/jobs"⟩
  moment := ⟨3600 * perSecond, fun _ => "0"⟩
  plain := fun _ => List.all_eq_true.1 (show "0".toList.all FileName.isKept = true by decide)
  text := "example.com"
  sweepConfig := .withJobRoot ⟨"/jobs"⟩
  sweptAt := 3600 * perSecond
  shared := rfl

/-- The job of the submission. -/
def encounterJob : Job where
  id := "job_19700101010000_0"
  principal := encounter.owner
  inputPath := ⟨"/jobs/t/job_19700101010000_0"⟩
  kind := .profile
  state := .queued
  ticket := some ⟨"1"⟩
  submittedAt := 3600 * perSecond

/-- The folder is listed before the input is created. -/
def safeOrder : List Party :=
  [.sweeper, .sweeper, .submitter, .submitter, .sweeper, .submitter]

/-- An order in which both of them succeed, and the job keeps its ticket and its input. -/
theorem input_survives_unless_overtaken_safeOrder : emptyFolder.files.Sound ∧
    (encounter.run emptyFolder safeOrder).submission = .done (.ok encounterJob) ∧
    (∃ h ∈ (encounter.run emptyFolder safeOrder).scheduler.held,
      encounterJob.ticket = some h.ticket ∧ h.executing = false) ∧
    ((∃ f, (encounter.run emptyFolder safeOrder).files.file? encounterJob.inputPath = some f ∧
      f.content = encounter.content) ∨
        encounter.Overtakes emptyFolder safeOrder encounterJob.inputPath) := by
  have hs : emptyFolder.files.Sound := by decide
  have hjob : (encounter.run emptyFolder safeOrder).submission = .done (.ok encounterJob) :=
    submission_of_job? (by decide +kernel)
  exact ⟨hs, hjob, input_survives_unless_overtaken encounter hs safeOrder hjob⟩

/-- The whole sweep takes place after the input was filled and before it is scheduled. -/
def lossyOrder : List Party :=
  [.submitter, .submitter, .sweeper, .sweeper, .sweeper, .submitter]

/-- **Not every order is safe.**  The input of a job that is held and has not started may be
gone. -/
theorem not_input_always_survives : ¬ ∀ (r : Race) (s : Spool MemoryScheduler) (order : List Party)
    (job : Job), s.files.Sound → (r.run s order).submission = .done (.ok job) →
      (∃ h ∈ (r.run s order).scheduler.held, job.ticket = some h.ticket ∧ h.executing = false) →
        ∃ f, (r.run s order).files.file? job.inputPath = some f ∧ f.content = r.content := by
  intro hall
  have hjob : (encounter.run emptyFolder lossyOrder).submission = .done (.ok encounterJob) :=
    submission_of_job? (by decide +kernel)
  have hheld : ∃ h ∈ (encounter.run emptyFolder lossyOrder).scheduler.held,
      encounterJob.ticket = some h.ticket ∧ h.executing = false := by
    decide +kernel
  have hgone : (encounter.run emptyFolder lossyOrder).files.file? encounterJob.inputPath
      = none := by decide +kernel
  obtain ⟨f, hf, -⟩ := hall encounter emptyFolder lossyOrder encounterJob (by decide) hjob hheld
  rw [hgone] at hf
  cases hf

end Race
end JobSpool
