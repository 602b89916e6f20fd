/-
# Principals are isolated

`SPEC_FULL.md`, 3: "each principal's jobs are invisible to other principals".

A principal sees only what is found in the principal's own folder: a listing, the progress of a job
and the hit list are the same when the folder was left untouched (`seesTheSame_of_untouched`).  What
a link in the folder leads to may be elsewhere, so a file that is read by its name must be no link.

Every call for a principal acts for that principal (`Call.actsFor`): the names of submissions,
deletions and sweeps never lead out of the folder.  So after any calls the two principals are apart
still, and the other one is untouched (`Call.untouched_runAll`).

Where that is not asked for, one principal may show up in what another sees
(`principals_not_always_isolated`).
-/

import JobSpool.Config.Load
import JobSpool.Proofs.Classification
import JobSpool.Proofs.Isolation

namespace JobSpool

open Files (Tree Place)

/-- Is there no link under a name in a principal's folder? -/
def Store.HasNoLink (s : Store) (q : Principal) (t : Tree) (name : String) : Prop :=
  ∀ here mode, t.Leads (s.folder q) here mode →
    ∀ target, t.at? (here ++ [.text name]) ≠ some (.link target)

/-- A plain name stays plain when something without a separator follows. -/
theorem FileName.isPlain_append {name more : String} (h : isPlain name = true)
    (hmore : more.toList.any isSeparator = false) : isPlain (name ++ more) = true := by
  unfold isPlain at h
  split at h
  · cases h
  · rename_i c cs hcs
    have hchars : (name ++ more).toList = c :: (cs ++ more.toList) := by
      rw [String.toList_append, hcs, List.cons_append]
    have hany : (c :: (cs ++ more.toList)).any isSeparator = (c :: cs).any isSeparator := by
      rw [← List.cons_append, List.any_append, hmore, Bool.or_false]
    rw [isPlain, hchars]
    simpa only [hany] using h

/-- A plain stem with an extension that has no separator makes a plain name. -/
theorem FileName.isPlain_ofParts {stem : String} (h : isPlain stem = true)
    {extension : Option String} (hextension : ∀ e ∈ extension, e.toList.any isSeparator = false) :
    isPlain (ofParts stem extension) = true := by
  cases extension with
  | none => exact h
  | some e =>
    rw [ofParts, String.append_assoc]
    refine isPlain_append h ?_
    rw [String.toList_append, List.any_append, hextension e rfl]
    decide

/-- The files of a job with a plain stem have plain names. -/
theorem Artifact.isPlain_fileName (a : Artifact) {stem : String}
    (h : FileName.isPlain stem = true) : FileName.isPlain (a.fileName stem) = true :=
  FileName.isPlain_ofParts h (by cases a <;> decide)

namespace Spool

variable {c : Config} {p q : Principal} {t t' : Tree}

/-- Does a principal find and see the same in two trees?  What a link in the folder leads to may be
elsewhere, and where the job root was missing a name may be missing in two ways. -/
structure SeesTheSame (c : Config) (q : Principal) (t t' : Tree) : Prop where
  folder : ∀ here mode, t'.Leads (c.store.folder q) here mode ↔ t.Leads (c.store.folder q) here mode
  objects : ∀ here mode, t.Leads (c.store.folder q) here mode → ∀ name,
    t'.at? (here ++ [name]) = t.at? (here ++ [name])
  listing : listJobs c q t' = listJobs c q t
  progress : ∀ stem, c.store.HasNoLink q t (Artifact.progress.fileName stem) →
    progressOf c q stem t' = progressOf c q stem t
  hitList : c.store.HasNoLink q t c.hitList.fileName →
    (t.isFolder c.store.root = true ∨ q.name.utf8ByteSize ≤ Files.nameLimit) →
      hitListDomains c q t' = hitListDomains c q t

/-- What is listed for an untouched principal is as it was. -/
theorem listJobs_of_untouched (h : c.store.Untouched q t t') (hs : t.Sound) (hs' : t'.Sound) :
    listJobs c q t' = listJobs c q t := by
  cases hfolder : t.isFolder (c.store.folder q) with
  | false =>
    rw [listJobs_of_not_isFolder hfolder,
      listJobs_of_not_isFolder ((h.isFolder_eq hs hs').trans hfolder)]
  | true =>
    obtain ⟨here, mode, hl⟩ := Tree.exists_leads_of_isFolder hs hfolder
    exact listJobs_eq_of_same hl ((h.leads here mode).2 hl) (h.same here mode hl)

/-- A file is read as before, be it there or missing. -/
theorem readText_of_untouched (h : c.store.Untouched q t t') (hs : t.Sound) {name : String}
    (hn : Path.IsStep name) (hlink : c.store.HasNoLink q t name)
    (hshort : t.isFolder (c.store.folder q) = false →
      t.isFolder c.store.root = true ∨ q.name.utf8ByteSize ≤ Files.nameLimit) :
    t'.readText ((c.store.folder q).join name) = t.readText ((c.store.folder q).join name) := by
  refine Tree.readText_congr ?_
  cases hfolder : t.isFolder (c.store.folder q) with
  | false => exact h.missed hfolder (hshort hfolder) name hn
  | true =>
    obtain ⟨here, mode, hl⟩ := Tree.exists_leads_of_isFolder hs hfolder
    exact Tree.find_join_congr hl ((h.leads here mode).2 hl) hn (h.same here mode hl _)
      (hlink here mode hl)

/-- The domains on the hit list of an untouched principal are as they were, if no link is
there. -/
theorem hitListDomains_of_untouched (hc : c.IsAccepted) (h : c.store.Untouched q t t')
    (hs : t.Sound) (hlink : c.store.HasNoLink q t c.hitList.fileName)
    (hshort : t.isFolder c.store.root = true ∨ q.name.utf8ByteSize ≤ Files.nameLimit) :
    hitListDomains c q t' = hitListDomains c q t := by
  have hread := readText_of_untouched h hs (FileName.isStep_of_isPlain hc.isPlain_fileName) hlink
    fun _ => hshort
  unfold hitListDomains
  dsimp only
  rw [hread]

/-- No progress is told from a folder that is missing. -/
theorem progressOf_of_not_isFolder {stem : String} (hs : t.Sound)
    (hfolder : t.isFolder (c.store.folder q) = false) : progressOf c q stem t = none := by
  unfold progressOf
  split
  · rename_i hplain
    have hn := FileName.isStep_of_isPlain (Artifact.isPlain_fileName .progress hplain)
    rw [Option.eq_none_iff_forall_ne_some]
    intro told htold
    obtain ⟨_, f, text, hfind, -⟩ := ProgressFile.read?_eq_some htold
    obtain ⟨here, mode, hl⟩ := Tree.exists_leads_of_locate hs (text_folder_ne_nil c q) hn
      (Tree.locate_of_find hfind)
    rw [hl.isFolder] at hfolder
    cases hfolder
  · rfl

/-- The progress of an untouched principal's job is as it was, if its file is no link. -/
theorem progressOf_of_untouched (h : c.store.Untouched q t t') (hs : t.Sound) (hs' : t'.Sound)
    {stem : String} (hlink : c.store.HasNoLink q t (Artifact.progress.fileName stem)) :
    progressOf c q stem t' = progressOf c q stem t := by
  cases hfolder : t.isFolder (c.store.folder q) with
  | false =>
    rw [progressOf_of_not_isFolder hs hfolder,
      progressOf_of_not_isFolder hs' ((h.isFolder_eq hs hs').trans hfolder)]
  | true =>
    unfold progressOf
    split
    · rename_i hplain
      have hn := FileName.isStep_of_isPlain (Artifact.isPlain_fileName .progress hplain)
      have hread := readText_of_untouched h hs hn hlink fun hnot => by
        rw [hfolder] at hnot
        cases hnot
      rw [ProgressFile.read?, ProgressFile.read?, ProgressFile.path, hread]
    · rfl

/-- **A principal that is untouched finds and sees the same.** -/
theorem seesTheSame_of_untouched (hc : c.IsAccepted) (h : c.store.Untouched q t t')
    (hs : t.Sound) (hs' : t'.Sound) : SeesTheSame c q t t' where
  folder := h.leads
  objects := h.same
  listing := listJobs_of_untouched h hs hs'
  progress _ hlink := progressOf_of_untouched h hs hs' hlink
  hitList hlink hshort := hitListDomains_of_untouched hc h hs hlink hshort

end Spool

/-! ### Calls for a principal -/

namespace Submission

variable {σ : Type} [Scheduler σ] {c : Config} {p : Principal} {sub : Submission}

/-- **A submission stores its input right in the principal's folder.** -/
theorem actsFor (htokens : sub.HasPlainTokens) {s : Spool σ} (hs : s.files.Sound) :
    c.store.ActsFor p s.files (sub.run c p s).2.files := by
  rcases exists_run_eq (c := c) (p := p) htokens s with
    ⟨e, hrun⟩ | ⟨now, create, write, hcreate, hwrite, -, hrun⟩
  · rw [hrun]
    exact ⟨s.files, Or.inl rfl, Tree.Spares.refl _ hs⟩
  · rw [hrun, files_enqueue]
    exact ⟨_, Or.inr ⟨sub.medium, rfl⟩, Spool.spares_of_ensureFolder hs hcreate hwrite
      fun here mode name hl _ _ hnot => hnot ⟨here, mode, _, hl, rfl⟩⟩

end Submission

namespace Call

variable {σ : Type} [Scheduler σ] {c : Config} {p q : Principal} {s : Spool σ}

/-- Is a call for a principal, or for none?  A submission has tokens that a name keeps. -/
def IsFor (p : Principal) : Call → Prop
  | submit p' sub => p' = p ∧ sub.HasPlainTokens
  | listJobs p' | progressOf p' _ | deleteJob p' _ | deleteJobs p' _ | reconcile p' _ => p' = p
  | cancelPending _ | pendingQueue _ => True

/-- **A call for a principal acts for that principal.** -/
theorem actsFor {call : Call} (hcall : call.IsFor p) (hs : s.files.Sound) :
    c.store.ActsFor p s.files (call.run c s).files := by
  have hsame : c.store.ActsFor p s.files s.files := ⟨_, Or.inl rfl, Tree.Spares.refl _ hs⟩
  cases call with
  | submit p' sub =>
    obtain ⟨rfl, htokens⟩ := hcall
    exact Submission.actsFor htokens hs
  | listJobs p' => exact hsame
  | progressOf p' stem => exact hsame
  | deleteJob p' stem =>
    obtain rfl : p' = p := hcall
    exact ⟨_, Or.inl rfl, Spool.spares_deleteJob hs fun here mode name hl _ _ hnot =>
      hnot ⟨here, mode, _, hl, rfl⟩⟩
  | deleteJobs p' stems =>
    obtain rfl : p' = p := hcall
    -- What is deleted after the first stem belongs to the folder that was there at the start.
    refine ⟨_, Or.inl rfl, Spool.spares_deleteJobs hs ?_⟩
    intro t' hspares _ _ here mode name hl _ _ hnot
    exact hnot ⟨here, mode, _, Store.leads_of_spares hs hspares hl, rfl⟩
  | cancelPending tickets =>
    rw [run, Spool.cancelPending]
    split <;> exact hsame
  | pendingQueue now => exact hsame
  | reconcile p' now =>
    obtain rfl : p' = p := hcall
    exact ⟨_, Or.inl rfl, Spool.spares_reconcile hs fun here mode name hl _ hnot =>
      hnot ⟨here, mode, _, hl, rfl⟩⟩

/-- The spool after calls, one after the other. -/
def runAll (c : Config) (calls : List Call) (s : Spool σ) : Spool σ :=
  calls.foldl (fun s call => call.run c s) s

/-- One call more is answered where the others have led. -/
theorem runAll_concat (c : Config) (calls : List Call) (call : Call) (s : Spool σ) :
    runAll c (calls ++ [call]) s = call.run c (runAll c calls s) := by
  rw [runAll, List.foldl_append]
  rfl

/-- **Calls for a principal leave another one untouched.** -/
theorem untouched_runAll (hc : c.IsAccepted) (hne : p ≠ q) (hs : s.files.Sound)
    (hapart : c.store.Apart p q s.files) {calls : List Call}
    (hcalls : ∀ call ∈ calls, call.IsFor p) :
    (runAll c calls s).files.Sound ∧ c.store.Untouched q s.files (runAll c calls s).files ∧
      c.store.Apart p q (runAll c calls s).files := by
  induction calls using List.reverseRecOn with
  | nil => exact ⟨hs, .refl _ q _, hapart⟩
  | append_singleton calls call ih =>
    obtain ⟨hsound, huntouched, hapart'⟩ := ih fun call' hmem =>
      hcalls call' (List.mem_append_left _ hmem)
    obtain ⟨hsound', huntouched', hapart'', -⟩ := hapart'.actsFor hsound hc.jobRoot_ne_nil hne
      (actsFor (hcalls call (List.mem_append_right _ List.mem_cons_self)) hsound)
    rw [runAll_concat]
    exact ⟨hsound', huntouched.trans huntouched' hs hsound, hapart''⟩

end Call

namespace Spool

variable {σ : Type} [Scheduler σ]

/-- **Principals are isolated.**  Whatever is asked for one principal, each call creates, writes and
removes files right in that principal's folder only, and in the end another principal finds and
sees the same. -/
theorem principals_isolated {c : Config} (hc : c.IsAccepted) {p q : Principal} (hne : p ≠ q)
    (s : Spool σ) (hs : s.files.Sound) (hapart : c.store.Apart p q s.files) (calls : List Call)
    (hcalls : ∀ call ∈ calls, call.IsFor p) :
    (∀ before call, before ++ [call] <+: calls → ∀ place,
      (Call.runAll c before s).files.ChangesFile (Call.runAll c (before ++ [call]) s).files place →
        c.store.Belongs p (Call.runAll c (before ++ [call]) s).files place) ∧
      SeesTheSame c q s.files (Call.runAll c calls s).files := by
  constructor
  · intro before call hbegins
    have hfor : ∀ call' ∈ before ++ [call], call'.IsFor p := fun call' hmem =>
      hcalls call' (hbegins.subset hmem)
    have hbefore : ∀ call' ∈ before, call'.IsFor p := fun call' hmem =>
      hfor call' (List.mem_append_left _ hmem)
    have hcall : call.IsFor p := hfor call (List.mem_append_right _ List.mem_cons_self)
    obtain ⟨hsound, -, hapart'⟩ := Call.untouched_runAll hc hne hs hapart hbefore
    obtain ⟨-, -, -, hbelongs⟩ := hapart'.actsFor hsound hc.jobRoot_ne_nil hne
      (Call.actsFor hcall hsound)
    rw [Call.runAll_concat]
    exact hbelongs
  · obtain ⟨hsound, huntouched, -⟩ := Call.untouched_runAll hc hne hs hapart hcalls
    exact seesTheSame_of_untouched hc huntouched hs hsound

/-! ### A neighbour -/

/-- A job root with a folder of one principal, who has uploaded something. -/
def nextDoor : Spool MemoryScheduler where
  files := {
    entries := [
      ([.text "jobs"], .folder Files.folderMode),
      ([.text "jobs", .text "n"], .folder Files.folderMode),
      ([.text "jobs", .text "n", .text "list"], .file ⟨"x".toByteArray, Files.fileMode, 0⟩)]
    home := [] }
  scheduler := {}

/-- The one who has uploaded something. -/
def neighbour : Principal :=
  ⟨"n", by decide⟩

/-- One who comes new. -/
def newcomer : Principal :=
  ⟨"k", by decide⟩

/-- A text that the newcomer submits. -/
def firstText : Call :=
  .submit newcomer (.text ⟨0, fun _ => "0"⟩ "a.com")

/-- The text is submitted for the newcomer. -/
theorem isFor_firstText : firstText.IsFor newcomer :=
  ⟨rfl, fun _ => List.all_eq_true.1 (show "0".toList.all FileName.isKept = true by decide)⟩

/-- What is done for the newcomer, who tries names that are not the newcomer's. -/
def newcomerCalls : List Call :=
  [firstText, .deleteJob newcomer "../n/list", .deleteJobs newcomer ["list", "n"],
    .reconcile newcomer 0]

/-- The job root of the neighbour is there. -/
theorem leads_nextDoor : nextDoor.files.Leads ⟨"/jobs"⟩ [.text "jobs"] Files.folderMode :=
  ⟨by decide, rfl⟩

/-- The neighbour's file is listed as before, and the newcomer's first text is stored. -/
theorem principals_isolated_nextDoor :
    (Config.withJobRoot ⟨"/jobs"⟩).IsAccepted ∧ newcomer ≠ neighbour ∧ nextDoor.files.Sound ∧
      (∀ call ∈ newcomerCalls, call.IsFor newcomer) ∧
      SeesTheSame (.withJobRoot ⟨"/jobs"⟩) neighbour nextDoor.files
        (Call.runAll (.withJobRoot ⟨"/jobs"⟩) newcomerCalls nextDoor).files ∧
      ∃ place, nextDoor.files.ChangesFile
          (Call.runAll (.withJobRoot ⟨"/jobs"⟩) [firstText] nextDoor).files place ∧
        (Config.withJobRoot ⟨"/jobs"⟩).store.Belongs newcomer
          (Call.runAll (.withJobRoot ⟨"/jobs"⟩) [firstText] nextDoor).files place := by
  have hne : newcomer ≠ neighbour := by decide
  have hapart : (Config.withJobRoot ⟨"/jobs"⟩).store.Apart newcomer neighbour nextDoor.files :=
    .of_not_link hne leads_nextDoor (fun target => by simp [nextDoor, newcomer, Tree.at?])
      fun target => by simp [nextDoor, neighbour, Tree.at?]
  have hcalls : ∀ call ∈ newcomerCalls, call.IsFor newcomer := by
    simp only [newcomerCalls, List.forall_mem_cons]
    exact ⟨isFor_firstText, rfl, rfl, rfl, List.forall_mem_nil _⟩
  obtain ⟨heach, hsees⟩ := principals_isolated Config.isAccepted_minimal hne nextDoor
    leads_nextDoor.sound hapart newcomerCalls hcalls
  have hstored : ((Call.runAll (.withJobRoot ⟨"/jobs"⟩) [firstText] nextDoor).files.at?
      [.text "jobs", .text "k", .text "job_19700101000000_0"]) = some (.file
        ⟨"a.com\n".toByteArray, Files.fileMode, 0⟩) := by decide +kernel
  have hchange : nextDoor.files.ChangesFile
      (Call.runAll (.withJobRoot ⟨"/jobs"⟩) [firstText] nextDoor).files
      [.text "jobs", .text "k", .text "job_19700101000000_0"] :=
    ⟨by rw [hstored]; decide, _, Or.inr hstored⟩
  exact ⟨Config.isAccepted_minimal, hne, leads_nextDoor.sound, hcalls, hsees, _, hchange,
    heach [] firstText ⟨_, rfl⟩ _ hchange⟩

/-! ### Who is not isolated -/

/-- A configuration with a job root that leads up again. -/
def upAgain : Config :=
  .withJobRoot ⟨"/a/../jobs"⟩

/-- The configuration can be read from a text. -/
theorem isAccepted_upAgain : upAgain.IsAccepted := by
  have hread : (Config.ofText
      "\x7b\"version\":\"1.0\",\"job_root_directory\":\"/a/../jobs\"\x7d").toOption
        = some upAgain := by decide +kernel
  exact .of_toOption hread

/-- A job root in which the neighbour's name leads to where the newcomer's folder will be. -/
def linkedAcross : Spool MemoryScheduler where
  files := {
    entries := [
      ([.text "jobs"], .folder Files.folderMode),
      ([.text "jobs", .text "n"], .link ⟨"/jobs/k"⟩)]
    home := [] }
  scheduler := {}

/-- Two folders, and a link from one progress file to the other. -/
def linkedCount : Spool MemoryScheduler where
  files := {
    entries := [
      ([.text "jobs"], .folder Files.folderMode),
      ([.text "jobs", .text "k"], .folder Files.folderMode),
      ([.text "jobs", .text "k", .text "x.count"],
        .file ⟨"1 2\n".toByteArray, Files.fileMode, 0⟩),
      ([.text "jobs", .text "n"], .folder Files.folderMode),
      ([.text "jobs", .text "n", .text "x.count"], .link ⟨"/jobs/k/x.count"⟩)]
    home := [] }
  scheduler := {}

/-- The number of jobs that are listed as queued. -/
def queued? (c : Config) (p : Principal) (s : Spool MemoryScheduler) : Option Nat :=
  (listJobs c p s.files).toOption.map (·.queued.length)

/-- The folder `/a` is made for the newcomer, and from then on the neighbour's file is listed. -/
theorem queued_nextDoor : queued? upAgain neighbour nextDoor = some 0 ∧
    queued? upAgain neighbour (Call.runAll upAgain [firstText] nextDoor) = some 1 :=
  ⟨by decide +kernel, by decide +kernel⟩

/-- What the newcomer submits is listed for the neighbour. -/
theorem queued_linkedAcross : queued? (.withJobRoot ⟨"/jobs"⟩) neighbour linkedAcross = some 0 ∧
    queued? (.withJobRoot ⟨"/jobs"⟩) neighbour
      (Call.runAll (.withJobRoot ⟨"/jobs"⟩) [firstText] linkedAcross) = some 1 :=
  ⟨by decide +kernel, by decide +kernel⟩

/-- What the newcomer deletes is gone for the neighbour. -/
theorem progressOf_linkedCount :
    progressOf (.withJobRoot ⟨"/jobs"⟩) neighbour "x" linkedCount.files = some ⟨1, 2⟩ ∧
      progressOf (.withJobRoot ⟨"/jobs"⟩) neighbour "x" (Call.runAll (.withJobRoot ⟨"/jobs"⟩)
        [.deleteJob newcomer "x"] linkedCount).files = none :=
  ⟨by decide +kernel, by decide +kernel⟩

/-- The folders of the two are apart nevertheless. -/
theorem apart_linkedCount :
    (Config.withJobRoot ⟨"/jobs"⟩).store.Apart newcomer neighbour linkedCount.files := by
  have hroot : linkedCount.files.Leads ⟨"/jobs"⟩ [.text "jobs"] Files.folderMode :=
    ⟨by decide, rfl⟩
  exact .of_not_link (by decide) hroot (fun target => by simp [linkedCount, newcomer, Tree.at?])
    fun target => by simp [linkedCount, neighbour, Tree.at?]

/-- In the file system next door there is no link. -/
theorem noLink_nextDoor (place : Place) (target : Path) :
    nextDoor.files.at? place ≠ some (.link target) := by
  intro hat
  have hne : place ≠ [] := by
    rintro rfl
    cases hat
  have hmem := (leads_nextDoor.sound.mem_entries_iff hne).2 hat
  simp [nextDoor] at hmem

/-- **Not in every file system are principals isolated.**  What is made for one of them may be what
the job root of all of them was missing, even where there are no links; a link may lead from one to
another, even in a job root that is there; and so may a link in the folder of one who is apart. -/
theorem principals_not_always_isolated :
    ¬ (∀ (c : Config) (p q : Principal) (s : Spool MemoryScheduler) (calls : List Call),
      c.IsAccepted → p ≠ q → s.files.Sound → (∀ call ∈ calls, call.IsFor p) →
        (∀ place target, s.files.at? place ≠ some (.link target)) →
          listJobs c q (Call.runAll c calls s).files = listJobs c q s.files) ∧
    ¬ (∀ (c : Config) (p q : Principal) (s : Spool MemoryScheduler) (calls : List Call),
      c.IsAccepted → p ≠ q → s.files.Sound → (∀ call ∈ calls, call.IsFor p) →
        s.files.isFolder c.store.root = true →
          listJobs c q (Call.runAll c calls s).files = listJobs c q s.files) ∧
    ¬ (∀ (c : Config) (p q : Principal) (s : Spool MemoryScheduler) (calls : List Call),
      c.IsAccepted → p ≠ q → s.files.Sound → (∀ call ∈ calls, call.IsFor p) →
        c.store.Apart p q s.files → ∀ stem,
          progressOf c q stem (Call.runAll c calls s).files = progressOf c q stem s.files) := by
  have hne : newcomer ≠ neighbour := by decide
  have hcalls : ∀ call ∈ [firstText], call.IsFor newcomer := by simp [isFor_firstText]
  refine ⟨fun h => ?_, fun h => ?_, fun h => ?_⟩
  · have hsame := h upAgain newcomer neighbour nextDoor [firstText] isAccepted_upAgain hne
      leads_nextDoor.sound hcalls noLink_nextDoor
    obtain ⟨hbefore, hafter⟩ := queued_nextDoor
    rw [queued?, hsame, ← queued?, hbefore] at hafter
    cases hafter
  · have hsame := h (.withJobRoot ⟨"/jobs"⟩) newcomer neighbour linkedAcross [firstText]
      Config.isAccepted_minimal hne (by decide) hcalls (by decide)
    obtain ⟨hbefore, hafter⟩ := queued_linkedAcross
    rw [queued?, hsame, ← queued?, hbefore] at hafter
    cases hafter
  · have hsame := h (.withJobRoot ⟨"/jobs"⟩) newcomer neighbour linkedCount
      [.deleteJob newcomer "x"] Config.isAccepted_minimal hne (by decide)
      (by simp [Call.IsFor]) apart_linkedCount "x"
    obtain ⟨hbefore, hafter⟩ := progressOf_linkedCount
    rw [hsame, hbefore] at hafter
    cases hafter

end Spool
end JobSpool
