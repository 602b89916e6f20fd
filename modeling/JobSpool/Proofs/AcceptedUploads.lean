/-
# Uploads that are accepted

`submit_file`: `SPEC_FULL.md`, 4.3.

What a submission leaves behind is known for every answer, but not that it is ever accepted.  An
upload is (`submitFile_accepted`), where everything that it asks for is granted: the folder of its
principal is there and may be listed, a name may be created in it unless it is taken
(`Store.RefusesOnlyTaken`), one of the names for the upload is usable, the uploaded file may be read
and is not empty, and the scheduler is on.

The copy is made over the empty input in several steps, and each of them must find the uploaded file
as it was (`Store.find_source_of_fills`) and the input as the step before has left it
(`Store.exists_copyInput_eq`).
-/

import JobSpool.Proofs.Calls
import JobSpool.Proofs.UsableNames

namespace JobSpool

open Files (Tree Place File Object)

namespace Store

variable {t t₀ : Tree} {folder source : Path} {place from' : Place} {mode : Nat}
  {name : String} {f : File} {now : Instant}

/-! ### Copying over an input -/

/-- **The uploaded file is found as it was,** whatever is in an input that is new. -/
theorem find_source_of_fills (hs : t₀.Sound) (hsource : t₀.find source = .ok (from', .file f))
    {input : Place} (hnew : t₀.at? input = none) (hfills : Tree.Fills input t₀ t) :
    t.find source = .ok (from', .file f) := by
  have hextends : t₀.Extends t := (Tree.Extends.refl t₀).fills hnew hfills
  obtain ⟨-, o, hfind, -⟩ := Tree.find_extends hs hextends hsource
  have hat := Tree.at?_of_find hs hsource
  have hother : from' ≠ input := by
    rintro rfl
    cases hat.symm.trans hnew
  have ho := Tree.at?_of_find hfills.sound hfind
  rw [hfills.other _ hother, hat] at ho
  cases ho
  exact hfind

/-- Is a new file all that is new in a tree? -/
structure Gains (t₀ t : Tree) (place : Place) (name : String) (f : File) : Prop where
  fills : Tree.Fills (place ++ [.text name]) t₀ t
  file : t.fileAt? place name = some f

namespace Gains

variable {made : File}

/-- A file more in a folder does not change where the path of the folder leads. -/
theorem leads (h : Gains t₀ t place name made) (hl : t₀.Leads folder place mode)
    (hnew : t₀.at? (place ++ [.text name]) = none) : t.Leads folder place mode :=
  leads_of_fills hl (Tree.fileOrFree_of_at? hnew) h.fills

/-- Another file may stand in its stead. -/
theorem put (h : Gains t₀ t place name made) (hl : t₀.Leads folder place mode)
    (hnew : t₀.at? (place ++ [.text name]) = none) (f' : File) :
    Gains t₀ (t.put (place ++ [.text name]) (.file f')) place name f' := by
  have hl' := h.leads hl hnew
  have hlegal := hl'.sound.isLegal (Tree.fileAt?_eq_some_iff.1 h.file)
  have hfree := Tree.fileOrFree_of_fileAt? h.file
  exact ⟨h.fills.trans (Tree.fills_put hl'.sound hl'.at? hlegal hfree f'),
    Tree.fileAt?_eq_some_iff.2 (Tree.at?_put_self (by simp))⟩

variable (hl : t₀.Leads folder place mode) (hnew : t₀.at? (place ++ [.text name]) = none)
  (hr : Tree.refusal? (folder.join name) = none) (hm : (Object.folder mode).maySearch = true)

include hl hnew hr hm

/-- **A new file is written** if it may be, and keeps its permissions. -/
theorem exists_write_eq (h : Gains t₀ t place name made)
    (hwrite : (Object.file made).mayWrite = true) (content : ByteArray) (now : Instant) :
    ∃ t', t.write (folder.join name) content now = .ok t' ∧
      Gains t₀ t' place name ⟨content, made.mode, now⟩ :=
  ⟨_, (h.leads hl hnew).write_file hr hm h.file hwrite content now, h.put hl hnew _⟩

/-- **The permissions of a new file can be set.** -/
theorem exists_setMode_eq (h : Gains t₀ t place name made) (mode' : Nat) :
    ∃ t', t.setMode (folder.join name) mode' = .ok t' ∧
      Gains t₀ t' place name { made with mode := mode' } := by
  refine ⟨_, ?_, h.put hl hnew _⟩
  rw [Tree.setMode, Tree.find, (h.leads hl hnew).locate_file h.file hr hm]

/-- **A file that may be read is copied** over a new one that may be written. -/
theorem exists_copyInput_eq (h : Gains t₀ t place name made)
    (hwrite : (Object.file made).mayWrite = true) (hsource : t₀.find source = .ok (from', .file f))
    (hread : (Object.file f).mayRead = true) (now : Instant) :
    ∃ t', copyInput source (folder.join name) now t = .ok t' ∧
      Gains t₀ t' place name ⟨f.content, inputMode, now⟩ := by
  obtain ⟨t₁, hemptied, h₁⟩ := h.exists_write_eq hl hnew hr hm hwrite ByteArray.empty now
  obtain ⟨t₂, hwritten, h₂⟩ := h₁.exists_write_eq hl hnew hr hm hwrite f.content now
  obtain ⟨t₃, hcopied, h₃⟩ := h₂.exists_setMode_eq hl hnew hr hm f.mode
  obtain ⟨t₄, hpublished, h₄⟩ := h₃.exists_setMode_eq hl hnew hr hm inputMode
  have hopened : t.opened source = .ok (from', .file f) := by
    rw [Tree.opened, find_source_of_fills hl.sound hsource hnew h.fills]
    exact if_pos hread
  have hcontent : t₁.read source = .ok f.content := Tree.read_eq_ok_iff.2
    ⟨from', f, find_source_of_fills hl.sound hsource hnew h₁.fills, hread, rfl⟩
  have hcopy : t.copy source (folder.join name) now = .ok t₃ := by
    simp only [Tree.copy, hopened, hemptied, hcontent, hwritten, hcopied]
  refine ⟨t₄, ?_, h₄⟩
  rw [copyInput, Files.Medium.copy, hcopy, Files.Medium.allow_intact]
  dsimp only
  rw [publish, Files.Medium.setMode, hpublished, Files.Medium.allow_intact, Except.mapError]

end Gains

/-- **The first usable name is given to an upload,** and only the empty file under it is new. -/
theorem exists_createNamed_eq {base : String} {reserved : List String} {n : Nat}
    (hl : t.Leads folder place mode) (hread : (Object.folder mode).mayRead = true)
    (hbase : IsWord base) (hrefuses : RefusesOnlyTaken folder base now t)
    (hn : IsFirstUsable t place reserved base n) :
    Tree.refusal? (folder.join (candidate base n)) = none ∧
      (Object.folder mode).maySearch = true ∧
      ∃ t', createNamed folder base reserved now t = .ok (folder.join (candidate base n), t') ∧
        Gains t t' place (candidate base n) (emptyFile now) := by
  have hname : Path.IsStep (candidate base n) := (isWord_candidate hbase n).isStep
  have hnew := hn.usable.free
  obtain ⟨made, hcreate⟩ : ∃ made, t.create (folder.join (candidate base n)) now = .ok made := by
    cases hcreate : t.create (folder.join (candidate base n)) now with
    | ok made => exact ⟨made, rfl⟩
    | error fault =>
      obtain rfl := hrefuses n hn.pos hn.le fault hcreate
      obtain ⟨o, ho⟩ := hl.create_eq_exists hname hcreate
      cases ho.symm.trans hnew
  obtain ⟨place', mode', hl', hm, -, hlegal, hr, -⟩ :=
    Tree.create_eq_ok hl.sound hl.text_ne_nil hname hcreate
  rw [hl.place_unique hl'] at hm
  obtain ⟨entries, hentries⟩ := exists_list_eq_ok hl hread
  refine ⟨hr, hl.maySearch_of_mayChange hm, _, ?_,
    Tree.fills_put hl.sound hl.at? hlegal (Tree.fileOrFree_of_at? hnew) (emptyFile now),
    Tree.fileAt?_eq_some_iff.2 (Tree.at?_put_self (by simp))⟩
  rw [createNamed_eq hl hbase hentries hrefuses,
    (find?_candidates_eq_some_iff hl hentries).2 ⟨n, hn, rfl⟩]
  rfl

end Store

namespace WorkerCommand

/-- **The command of a worker is never blank.** -/
theorem isBlankText_line (worker : WorkerConfig) (kind : JobKind) (folder input : Path) :
    Text.isBlankText (line worker kind folder input) = false := by
  have hmem : ';' ∈ (line worker kind folder input).toList := by simp [line]
  rw [Text.isBlankText, List.all_eq_false]
  exact ⟨';', hmem, by decide⟩

end WorkerCommand

namespace Spool

variable {c : Config} {p : Principal} {now : Instant} {s : Spool MemoryScheduler} {u : Upload}
  {place : Place} {base : String} {f : File}

/-- **A scheduler that is on takes every worker's command,** under its next ticket. -/
theorem exists_schedule_eq (c : Config) (now : Instant) (p : Principal) (kind : JobKind)
    (folder input : Path) {s : Spool MemoryScheduler} (havailable : s.scheduler.available = true) :
    ∃ job s', schedule c now p kind folder input s = (.ok job, s') ∧ s'.files = s.files ∧
      job.id = input.shownName ∧ job.ticket = some ⟨Text.writeCount s.scheduler.nextId⟩ := by
  have hsubmit : Scheduler.submit s.files (WorkerCommand.line c.worker kind folder input)
      s.scheduler = s.scheduler.submit (WorkerCommand.line c.worker kind folder input) := rfl
  rw [schedule]
  rw [hsubmit]
  rcases MemoryScheduler.submit_cases (WorkerCommand.line c.worker kind folder input) s.scheduler
    with ⟨hoff | hblank, -⟩ | ⟨-, htaken⟩
  · cases havailable.symm.trans hoff
  · cases (WorkerCommand.isBlankText_line c.worker kind folder input).symm.trans hblank
  · rw [htaken]
    exact ⟨_, _, rfl, rfl, rfl, rfl⟩

/-- **An input is stored** in a folder that is there, if it can be created and filled. -/
theorem storeInput_of_ok {t made t' : Tree} {input : Path}
    {create : Path → Tree → Except StorageError (Path × Tree)}
    {write : Path → Tree → Except StorageError Tree}
    (hfolder : t.isFolder (c.store.folder p) = true)
    (hcreate : create (c.store.folder p) t = .ok (input, made))
    (hwrite : write input made = .ok t') :
    storeInput c p create write t = (.ok (c.store.folder p, input), t') := by
  have hensure : c.store.ensureFolder p t = (.ok (c.store.folder p), t) := by
    simp only [Store.ensureFolder, hfolder, if_true]
  have hallowed : Files.Medium.intact.refusal? .create input = none := rfl
  have hfill : fill input write made = (.ok (), t') := by
    simp only [fill, hwrite]
  unfold storeInput
  rw [hensure]
  dsimp only
  rw [hcreate]
  dsimp only
  rw [hallowed]
  dsimp only
  rw [hfill]

/-- Is an upload granted what it asks for?  The folder of its principal may be listed, a usable name
can be created in it, the uploaded file may be read and is not empty, and the scheduler is on. -/
structure Granted (c : Config) (p : Principal) (now : Instant) (u : Upload)
    (s : Spool MemoryScheduler) (place : Place) (base : String) (f : File) : Prop where
  leads : ∃ mode, s.files.Leads (c.store.folder p) place mode ∧
    (Object.folder mode).mayRead = true
  stem : FileName.uploadStem u.originalName = some base
  refuses : Store.RefusesOnlyTaken (c.store.folder p) base now s.files
  usable : ∃ n, 1 ≤ n ∧ n ≤ Store.namedAttempts ∧
    Store.IsUsable s.files place c.hitList.reserved (Store.candidate base n)
  source : ∃ from', s.files.find u.source = .ok (from', .file f)
  content : f.content.isEmpty = false
  readable : (Object.file f).mayRead = true
  available : s.scheduler.available = true

/-- **An upload that is granted what it asks for is accepted,** under the first usable name and with
the next ticket, and its input is all that is new. -/
theorem submitFile_accepted (h : Granted c p now u s place base f) :
    ∃ n job s', Store.IsFirstUsable s.files place c.hitList.reserved base n ∧
      submitFile c now p u s = (.ok job, s') ∧ job.id = Store.candidate base n ∧
        job.ticket = some ⟨Text.writeCount s.scheduler.nextId⟩ ∧
          Store.Gains s.files s'.files place (Store.candidate base n)
            ⟨f.content, Store.inputMode, now⟩ := by
  obtain ⟨mode, hl, hread⟩ := h.leads
  obtain ⟨from', hsource⟩ := h.source
  have hword := FileName.isWord_of_uploadStem h.stem
  obtain ⟨n, hn⟩ := Store.exists_isFirstUsable h.usable
  obtain ⟨hr, hsearch, made, hnamed, hgains⟩ :=
    Store.exists_createNamed_eq hl hread hword h.refuses hn
  -- The empty file may be written by its owner, so it can be copied over.
  have hwrite : (Object.file (Store.emptyFile now)).mayWrite = true :=
    (by decide : Nat.testBit Files.fileMode 7 = true)
  obtain ⟨t', hcopied, hgains'⟩ :=
    hgains.exists_copyInput_eq hl hn.usable.free hr hsearch hwrite hsource h.readable now
  have hstored : storeInput c p
      (fun folder => Store.createNamed folder base c.hitList.reserved now)
      (fun input t => Store.copyInput u.source input now t) s.files
        = (.ok (c.store.folder p, (c.store.folder p).join (Store.candidate base n)), t') :=
    storeInput_of_ok hl.isFolder hnamed hcopied
  have hcheck : checkUpload u s.files = .ok base := by
    have hfile : s.files.file? u.source = some f := by rw [Tree.file?, hsource]
    simp [checkUpload, hfile, h.content, h.stem]
  have hsubmit : submitFile c now p u s = schedule c now p .profile (c.store.folder p)
      ((c.store.folder p).join (Store.candidate base n)) (s.withFiles t') := by
    unfold submitFile enqueue
    rw [hcheck]
    dsimp only
    rw [hstored]
  have havailable : (s.withFiles t').scheduler.available = true := h.available
  obtain ⟨job, s', hscheduled, hfiles, hid, hticket⟩ := exists_schedule_eq c now p .profile
    (c.store.folder p) ((c.store.folder p).join (Store.candidate base n)) havailable
  refine ⟨n, job, s', hn, hsubmit.trans hscheduled, hid.trans ?_, hticket, hfiles ▸ hgains'⟩
  exact shownName_join (text_folder_ne_nil c p) (Store.isWord_candidate hword n).isStep

end Spool
end JobSpool
