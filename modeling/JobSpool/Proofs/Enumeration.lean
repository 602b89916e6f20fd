/-
# The order in which a folder is enumerated does not show

`list_jobs`, `delete_job` and `reconcile`: `SPEC_FULL.md`, 4.1, "order not guaranteed —
callers must sort deterministically".

The calls that look at a whole folder get its files in the order in which the file system
enumerates them.  Spools with the same files in another order (`Tree.SameObjects`) give the same
answers (`order_does_not_show`): what is listed is sorted, and what is found in a group does not
depend on the order of its files.

Removals are done one by one in the order of the list, and any of them may fail.  But whether one
fails, and why, is known before the first one is done, from the path of the file and the
permissions of the folder (`removalFault?`).  So a run of removals is known file by file
(`Store.removeEntries_eq_removal`), and in another order it removes the same files and fails on
the same ones (`Store.removeEntries_alike`).  A sweep is such a run for each group
(`sweepGroup_alike`), one group after another (`sweepGroups_alike`).
-/

import JobSpool.Lifecycle.Delete
import JobSpool.Proofs.Classification
import JobSpool.Proofs.Removals

namespace JobSpool

open Files (Tree Place File Object Fault)

/-! ### Removals that are known in advance -/

namespace Store

/-- Why a file in a folder cannot be removed, if it cannot: it is known from the path of the file
and the permissions of the folder. -/
def removalFault? (mode : Nat) (path : Path) : Option Fault :=
  match Tree.refusal? path with
  | some fault => some fault
  | none =>
    if (Object.folder mode).mayWrite && (Object.folder mode).maySearch then none
    else some (.system .denied)

/-- The report of a removal that fails. -/
def failedRemoval (e : Entry) : Fault → RemovalReport
  | .system .noEntry => {}
  | fault => { failures := [⟨e.fileName, (StorageError.remove e.path fault).reason⟩] }

/-- The report of the removal of one file in a folder. -/
def removal (mode : Nat) (e : Entry) : RemovalReport :=
  match removalFault? mode e.path with
  | none => { removed := [e.fileName] }
  | some fault => failedRemoval e fault

/-- The report of several removals. -/
def removals (mode : Nat) (es : List Entry) : RemovalReport where
  removed := es.flatMap fun e => (removal mode e).removed
  failures := es.flatMap fun e => (removal mode e).failures

/-- The places that removals clear. -/
def cleared (mode : Nat) (place : Place) (es : List Entry) : List Place :=
  (es.filter fun e => (removalFault? mode e.path).isNone).map (placeIn place)

/-- Are entries for files in a folder, with distinct names? -/
structure Listed (t : Tree) (folder : Path) (place : Place) (es : List Entry) : Prop where
  path : ∀ e ∈ es, e.path = folder.join e.fileName
  file : ∀ e ∈ es, ∃ f, t.fileAt? place e.fileName = some f
  distinct : (es.map (·.fileName)).Nodup

variable {t t' : Tree} {folder : Path} {place : Place} {mode : Nat} {es es' first rest : List Entry}

/-- **The entries of a listing are for files in the folder.** -/
theorem listed_of_list (hl : t.Leads folder place mode) (hentries : list folder t = .ok es) :
    Listed t folder place es where
  path e he := by
    obtain ⟨name, f, -, rfl⟩ := (mem_list_iff hl hentries).1 he
    rw [Entry.fileName_ofName]
    rfl
  file e he := by
    obtain ⟨name, f, hf, rfl⟩ := (mem_list_iff hl hentries).1 he
    rw [Entry.fileName_ofName]
    exact ⟨f, (Tree.shownFile?_eq_some_iff.1 hf).2⟩
  distinct := nodup_list hl hentries

namespace Listed

/-- Files of a folder are so in another order. -/
theorem of_perm (h : Listed t folder place es) (hperm : es.Perm es') :
    Listed t folder place es' where
  path e he := h.path e (hperm.mem_iff.2 he)
  file e he := h.file e (hperm.mem_iff.2 he)
  distinct := (hperm.map _).nodup_iff.1 h.distinct

/-- So are some of them. -/
theorem sublist (h : Listed t folder place es) (hsub : es'.Sublist es) :
    Listed t folder place es' where
  path e he := h.path e (hsub.subset he)
  file e he := h.file e (hsub.subset he)
  distinct := h.distinct.sublist (hsub.map _)

/-- They are so in a tree with the same objects. -/
theorem sameObjects (h : Listed t folder place es) (hsame : t.SameObjects t') :
    Listed t' folder place es where
  path := h.path
  file e he := by
    obtain ⟨f, hf⟩ := h.file e he
    exact ⟨f, (hsame.fileAt? place e.fileName).trans hf⟩
  distinct := h.distinct

/-- Files that are listed can be removed in one run if each can be removed alone. -/
theorem removable (h : Listed t folder place es)
    (halone : ∀ name ∈ es.map (·.fileName), ∃ t', t.remove (folder.join name) = .ok t') :
    Removable t folder place es where
  path := h.path
  file := h.file
  alone e he := halone e.fileName (List.mem_map_of_mem he)
  distinct := h.distinct

/-- What a run of removals clears are places of files. -/
theorem allFiles_cleared (h : Listed t folder place es) (mode : Nat) :
    t.AllFiles (cleared mode place es) := by
  intro p hp
  obtain ⟨e, he, rfl⟩ := List.mem_map.1 hp
  obtain ⟨f, hf⟩ := h.file e (List.mem_of_mem_filter he)
  exact ⟨f, Tree.fileAt?_eq_some_iff.1 hf⟩

/-- **What is listed after other files** is there when those are removed. -/
theorem without (h : Listed t folder place (first ++ rest)) (mode : Nat) :
    Listed (t.without (cleared mode place first)) folder place rest := by
  have hdistinct := h.distinct
  rw [List.map_append, List.nodup_append] at hdistinct
  refine ⟨fun e he => h.path e (List.mem_append_right _ he), fun e he => ?_, hdistinct.2.1⟩
  rw [Tree.fileAt?_without, if_neg]
  · exact h.file e (List.mem_append_right _ he)
  · intro hmem
    obtain ⟨e', he', heq⟩ := List.mem_map.1 hmem
    have hname : e'.fileName = e.fileName := by simpa [placeIn] using heq
    exact hdistinct.2.2 _ (List.mem_map_of_mem (List.mem_of_mem_filter he')) _
      (List.mem_map_of_mem he) hname

end Listed

/-- **The removal of a file in a folder,** be it that it fails. -/
theorem remove_join (hl : t.Leads folder place mode) {name : String} {f : File}
    (hf : t.fileAt? place name = some f) :
    t.remove (folder.join name) = match removalFault? mode (folder.join name) with
      | some fault => .error fault
      | none => .ok (t.without [place ++ [.text name]]) := by
  obtain ⟨hstep, -⟩ := hl.sound.isLegal (Tree.fileAt?_eq_some_iff.1 hf)
  rw [removalFault?]
  cases hr : Tree.refusal? (folder.join name) with
  | some fault => rw [Tree.remove, Tree.locate, hr]
  | none =>
    cases hsearch : (Object.folder mode).maySearch with
    | false =>
      rw [Tree.remove, hl.locate_of_not_maySearch hstep hr hsearch, Bool.and_false]
      rfl
    | true =>
      have hchange := hl.mayChange
      rw [hsearch, Bool.and_true] at hchange
      rw [Bool.and_true]
      cases hwrite : (Object.folder mode).mayWrite with
      | true => exact hl.remove_eq hf hr (hchange.trans hwrite)
      | false =>
        rw [hwrite] at hchange
        rw [Tree.remove, hl.locate_file hf hr hsearch]
        simp [Tree.endsInName_join hl.text_ne_nil hstep,
          (Path.steps_join hl.text_ne_nil hstep).2.2, hchange]

/-- A removal that is refused is reported, and changes nothing. -/
theorem removeEntry_of_error {e : Entry} {fault : Fault} (h : t.remove e.path = .error fault) :
    removeEntry e t = (failedRemoval e fault, t) := by
  rw [removeEntry, remove, h]
  cases fault with
  | system cause => cases cause <;> rfl
  | _ => rfl

/-- A removal of one file is known from its path and the permissions of the folder. -/
theorem removeEntry_eq_removal (hl : t.Leads folder place mode) {e : Entry}
    (h : Listed t folder place [e]) :
    removeEntry e t = (removal mode e, t.without (cleared mode place [e])) := by
  obtain ⟨f, hf⟩ := h.file e (List.mem_singleton_self e)
  have hremove := remove_join hl hf
  rw [← h.path e (List.mem_singleton_self e)] at hremove
  rw [cleared, removal, List.filter_singleton]
  cases hfault : removalFault? mode e.path with
  | none =>
    rw [hfault] at hremove
    exact removeEntry_eq hremove
  | some fault =>
    rw [hfault] at hremove
    rw [removeEntry_of_error hremove]
    exact Prod.ext rfl (Tree.without_nil t).symm

/-- **A run of removals is known file by file.** -/
theorem removeEntries_eq_removal (hl : t.Leads folder place mode) (h : Listed t folder place es) :
    removeEntries es t = (removals mode es, t.without (cleared mode place es)) := by
  induction es generalizing t with
  | nil => simp [removeEntries, removals, cleared, Tree.without_nil]
  | cons e rest ih =>
    have hfirst : Listed t folder place [e] := h.sublist (by simp)
    have hrest : Listed (t.without (cleared mode place [e])) folder place rest :=
      Listed.without h mode
    have hplaces : cleared mode place [e] ++ cleared mode place rest
        = cleared mode place (e :: rest) := by
      rw [cleared, cleared, ← List.map_append, ← List.filter_append]
      rfl
    rw [removeEntries, removeEntry_eq_removal hl hfirst]
    dsimp only
    rw [ih (hl.without (hfirst.allFiles_cleared mode)) hrest]
    dsimp only
    rw [Tree.without_append, hplaces]
    rfl

/-- Do two runs of removals report the same, in some order, and leave the same objects? -/
structure RemovalsAlike (x y : RemovalReport × Tree) : Prop where
  removed : x.1.removed.Perm y.1.removed
  failures : x.1.failures.Perm y.1.failures
  files : x.2.SameObjects y.2

/-- **Removals in another order** remove the same files and fail on the same ones. -/
theorem removeEntries_alike (hl : t.Leads folder place mode) (h : Listed t folder place es)
    (hsame : t.SameObjects t') (hperm : es.Perm es') :
    RemovalsAlike (removeEntries es t) (removeEntries es' t') := by
  rw [removeEntries_eq_removal hl h,
    removeEntries_eq_removal (hsame.leads hl) ((h.of_perm hperm).sameObjects hsame)]
  refine ⟨hperm.flatMap_right _, hperm.flatMap_right _, hsame.without ?_ (h.allFiles_cleared mode)⟩
  exact (hperm.filter _).map _

end Store

/-! ### Sweeping groups in another order -/

namespace JobFiles.SameFiles

variable {s s' : JobFiles}

/-- Whether a job is live depends on its files alone. -/
theorem isLive (h : s.SameFiles s') (policy : SweepPolicy) :
    policy.isLive s' = policy.isLive s := by
  rw [SweepPolicy.isLive, SweepPolicy.isLive, h.has (by decide), h.progressIsStale]

/-- Which files of a job stay depends on its files alone. -/
theorem keeps (h : s.SameFiles s') (policy : SweepPolicy) : policy.keeps s' = policy.keeps s := by
  funext e
  rw [SweepPolicy.keeps, SweepPolicy.keeps, h.isLive]

/-- What a sweep removes of a job depends on its files alone. -/
theorem removed (h : s.SameFiles s') (policy : SweepPolicy) :
    (policy.removed s).Perm (policy.removed s') := by
  rw [SweepPolicy.removed, SweepPolicy.removed, h.keeps]
  exact h.perm.filter _

/-- What a sweep keeps of a job depends on its files alone. -/
theorem kept (h : s.SameFiles s') (policy : SweepPolicy) :
    (policy.kept s).Perm (policy.kept s') := by
  rw [SweepPolicy.kept, SweepPolicy.kept, h.keeps]
  exact h.perm.filter _

/-- The state in which a sweep finds a job depends on its files alone. -/
theorem stateInSweep (h : s.SameFiles s') (policy : SweepPolicy) :
    policy.state? s' = policy.state? s := by
  rw [SweepPolicy.state?, SweepPolicy.state?, h.state?, h.has (by decide), h.progressIsStale]

end JobFiles.SameFiles

namespace SweepReport

/-- Do two reports say the same, before their lists are put in order? -/
structure SaysSame (r r' : SweepReport) : Prop where
  removed : r.removed.Perm r'.removed
  kept : r.kept.Perm r'.kept
  orphaned : r.orphaned = r'.orphaned
  failures : r.failures.Perm r'.failures

/-- Are two reports the same, the order of failures aside? -/
structure SameLists (r r' : SweepReport) : Prop where
  removed : r.removed = r'.removed
  kept : r.kept = r'.kept
  orphaned : r.orphaned = r'.orphaned
  failures : r.failures.Perm r'.failures

end SweepReport

namespace Spool

section Sweeping

variable {t t' : Tree} {folder : Path} {place : Place} {mode : Nat} {policy : SweepPolicy}
  {s s' : JobFiles} {gs gs' : List JobFiles} {report report' : SweepReport}

/-- A sweep of one group clears what goes of it. -/
theorem files_sweepGroup (hl : t.Leads folder place mode)
    (h : Store.Listed t folder place (policy.removed s)) (report : SweepReport) :
    (sweepGroup policy report s t).2
      = t.without (Store.cleared mode place (policy.removed s)) := by
  rw [sweepGroup, Store.removeEntries_eq_removal hl h]

/-- **One group,** in another order and after a report that says the same. -/
theorem sweepGroup_alike (hl : t.Leads folder place mode)
    (h : Store.Listed t folder place (policy.removed s)) (hsame : t.SameObjects t')
    (hs : s.SameFiles s') (hreport : report.SaysSame report') :
    (sweepGroup policy report s t).1.SaysSame (sweepGroup policy report' s' t').1 ∧
      (sweepGroup policy report s t).2.SameObjects (sweepGroup policy report' s' t').2 := by
  have hremovals := Store.removeEntries_alike hl h hsame (hs.removed policy)
  rw [sweepGroup, sweepGroup]
  refine ⟨⟨?_, ?_, ?_, ?_⟩, hremovals.files⟩
  · exact hreport.removed.append hremovals.removed
  · exact hreport.kept.append ((hs.kept policy).map _)
  · dsimp only [SweepReport.absorb]
    rw [hreport.orphaned, hs.stateInSweep, hs.stem, hs.stateAfterSweep hremovals.removed]
  · exact hreport.failures.append hremovals.failures

/-- **A run over groups:** each of them may be in another order, and those that come later are
still there when one is swept. -/
theorem sweepGroups_alike (hl : t.Leads folder place mode)
    (h : Store.Listed t folder place (gs.flatMap policy.removed)) (hsame : t.SameObjects t')
    (hgs : List.Forall₂ JobFiles.SameFiles gs gs') (hreport : report.SaysSame report') :
    (sweepGroups policy report gs t).1.SaysSame (sweepGroups policy report' gs' t').1 ∧
      (sweepGroups policy report gs t).2.SameObjects (sweepGroups policy report' gs' t').2 := by
  induction hgs generalizing t t' report report' with
  | nil => exact ⟨hreport, hsame⟩
  | cons hs hgs ih =>
    rw [List.flatMap_cons] at h
    have hfirst := h.sublist (List.sublist_append_left _ _)
    obtain ⟨hreport', hsame'⟩ := sweepGroup_alike hl hfirst hsame hs hreport
    have hfiles := files_sweepGroup hl hfirst report
    have hleads := hl.without (hfirst.allFiles_cleared mode)
    have hrest := h.without mode
    rw [← hfiles] at hleads hrest
    exact ih hleads hrest hsame' hreport'

/-- **A sweep of a listing in another order** gives the same lists. -/
theorem sweepEntries_alike (c : Config) (policy : SweepPolicy)
    (hl : t.Leads folder place mode) {entries entries' : List Entry}
    (h : Store.Listed t folder place entries) (hsame : t.SameObjects t')
    (hperm : entries.Perm entries') :
    (sweepEntries c policy entries t).1.SameLists (sweepEntries c policy entries' t').1 ∧
      (sweepEntries c policy entries t).2.SameObjects (sweepEntries c policy entries' t').2 := by
  have hgroups : List.Forall₂ JobFiles.SameFiles (JobFiles.groups (jobEntries c entries))
      (JobFiles.groups (jobEntries c entries')) :=
    JobFiles.forall₂_groups (hperm.filter _) (h.distinct.sublist (List.filter_sublist.map _))
  have hswept : Store.Listed t folder place (sweptFiles c policy entries) := by
    have hparts := h.of_perm (swept_append_kept_perm c policy h.distinct.of_map).symm
    exact hparts.sublist (List.sublist_append_left _ _)
  have hstart : SweepReport.SaysSame { kept := (hitListEntries c entries).map (·.fileName) }
      { kept := (hitListEntries c entries').map (·.fileName) } :=
    ⟨.nil, (hperm.filter _).map _, rfl, .nil⟩
  obtain ⟨hreport, hfiles⟩ := sweepGroups_alike hl hswept hsame hgroups hstart
  refine ⟨⟨Text.sortNames_congr hreport.removed, Text.sortNames_congr hreport.kept, ?_,
    hreport.failures⟩, hfiles⟩
  exact congrArg (Text.sortNaturalDescending (·.stem)) hreport.orphaned

end Sweeping

/-! ### Answers about a folder in another order -/

section Answers

variable {σ : Type} [Scheduler σ] {c : Config} {now : Instant} {p : Principal} {t t' : Tree}
  {s s' : Spool σ}

/-- A listing is the same in whichever order the folder is enumerated. -/
theorem listJobs_congr (h : t.SameObjects t') : listJobs c p t' = listJobs c p t := by
  cases hfolder : t.isFolder (c.store.folder p) with
  | false =>
    rw [listJobs_of_not_isFolder hfolder, listJobs_of_not_isFolder ((h.isFolder _).trans hfolder)]
  | true =>
    obtain ⟨place, mode, hl⟩ := Tree.exists_leads_of_isFolder h.sound hfolder
    exact listJobs_eq_of_same hl (h.leads hl) fun name => h.at? _

/-- A deletion reports the same removals and failures, up to their order. -/
theorem deleteJob_alike (h : t.SameObjects t') (stem : String) :
    Alike Store.RemovalsAlike (deleteJob c p stem t) (deleteJob c p stem t') := by
  rw [deleteJob, deleteJob]
  cases FileName.isPlain stem with
  | false => exact .error _
  | true =>
    dsimp only
    rw [h.isFolder]
    cases hfolder : t.isFolder (c.store.folder p) with
    | false => exact .ok ⟨.nil, .nil, h⟩
    | true =>
      obtain ⟨place, mode, hl⟩ := Tree.exists_leads_of_isFolder h.sound hfolder
      obtain ⟨cause, hlist, hlist'⟩ | ⟨entries, entries', hlist, hlist', hperm⟩ :=
        (Store.list_alike h (c.store.folder p)).eq_ok_or_error
      · rw [hlist, hlist']
        exact .error _
      · rw [hlist, hlist']
        have hlisted := (Store.listed_of_list hl hlist).sublist
          (List.filter_sublist (p := isDeletedWith c stem))
        exact .ok (Store.removeEntries_alike hl hlisted h (hperm.filter _))

/-- A sweep gives the same report, and leaves the same objects. -/
theorem reconcile_alike (h : s.files.SameObjects s'.files)
    (hanswer : pendingAnswer now s' = pendingAnswer now s) :
    Alike SweepReport.SameLists (reconcile c now p s).1 (reconcile c now p s').1 ∧
      (reconcile c now p s).2.files.SameObjects (reconcile c now p s').2.files := by
  rw [reconcile, reconcile, h.isFolder]
  cases hfolder : s.files.isFolder (c.store.folder p) with
  | false => exact ⟨.ok ⟨rfl, rfl, rfl, .nil⟩, h⟩
  | true =>
    obtain ⟨place, mode, hl⟩ := Tree.exists_leads_of_isFolder h.sound hfolder
    rw [pendingAnswer, pendingAnswer] at hanswer
    simp only [withScheduler, withFiles, hanswer, Bool.not_true, Bool.false_eq_true, if_false]
    obtain ⟨cause, hlist, hlist'⟩ | ⟨entries, entries', hlist, hlist', hperm⟩ :=
      (Store.list_alike h (c.store.folder p)).eq_ok_or_error
    · rw [hlist, hlist']
      exact ⟨.error _, h⟩
    · rw [hlist, hlist']
      have hsweep := sweepEntries_alike c (policyFor c now s) hl
        (Store.listed_of_list hl hlist) h hperm
      exact ⟨.ok hsweep.1, hsweep.2⟩

/-- **The order in which a folder is enumerated does not show.**  Every order of the entries of a
listing is one in which some tree with the same objects lists them.  Spools with the same objects,
whose schedulers answer the same, list the same jobs; they are reconciled with the same lists in
the report, and deleting a stem removes the same files, in some order.  Afterwards the same
objects are left. -/
theorem order_does_not_show (c : Config) (now : Instant) (p : Principal)
    (h : s.files.SameObjects s'.files) (hanswer : pendingAnswer now s' = pendingAnswer now s) :
    (∀ entries, Store.list (c.store.folder p) s.files = .ok entries → ∀ entries',
      entries'.Perm entries → ∃ t', s.files.SameObjects t' ∧
        Store.list (c.store.folder p) t' = .ok entries') ∧
    listJobs c p s'.files = listJobs c p s.files ∧
    (Alike SweepReport.SameLists (reconcile c now p s).1 (reconcile c now p s').1 ∧
      (reconcile c now p s).2.files.SameObjects (reconcile c now p s').2.files) ∧
    ∀ stem, Alike Store.RemovalsAlike (deleteJob c p stem s.files) (deleteJob c p stem s'.files) :=
  ⟨fun _ hlist _ hperm => Store.exists_list_eq_of_perm h.sound hlist hperm, listJobs_congr h,
    reconcile_alike h hanswer, deleteJob_alike h⟩

end Answers

/-! ### A folder enumerated backwards -/

/-- The spool `leftOver`, enumerated backwards. -/
def leftOverBackwards : Spool MemoryScheduler :=
  { leftOver with
    files := { leftOver.files with entries := leftOver.files.entries.reverse } }

/-- A folder that is enumerated backwards, with its jobs left over. -/
theorem order_does_not_show_leftOver :
    leftOver.files.SameObjects leftOverBackwards.files ∧
      listJobs (.withJobRoot ⟨"/jobs"⟩) leftOverOwner leftOverBackwards.files
        = listJobs (.withJobRoot ⟨"/jobs"⟩) leftOverOwner leftOver.files ∧
      leftOverBackwards.files.entries ≠ leftOver.files.entries := by
  have hsame : leftOver.files.SameObjects leftOverBackwards.files :=
    .of_perm leads_leftOver.sound (List.reverse_perm _).symm
  exact ⟨hsame, (order_does_not_show (.withJobRoot ⟨"/jobs"⟩) 0 leftOverOwner hsame rfl).2.1,
    by decide⟩

end Spool
end JobSpool
