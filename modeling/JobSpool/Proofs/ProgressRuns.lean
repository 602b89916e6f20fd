/-
# The progress that was told last

`FileProgress` and `list_jobs`: `SPEC_FULL.md`, 4.4 and E7.

A worker tells its progress by events, and `ProgressFile.record` lets the progress file follow
each of them.  The file holds what was told last (`lastTold`) after any number of events:
`ProgressFile.Follows` is what an event keeps (`Follows.record`), and so a run does
(`Follows.recordAll`).  A reader gets the same from the file (`Follows.read?_eq`), and a listing of
the folder shows the same counts (`Follows.mem_running_iff`).

The file must be one that can be written.  Its name and its path must not be too long, and names
must be allowed to come into the folder.  Else the events leave no trace, since nothing is ever
raised to the worker; and a folder that may be written but not read is not listed at all
(`progress_not_always_delivered`).
-/

import JobSpool.Proofs.FreeNames
import JobSpool.Proofs.ToldProgress
import JobSpool.Proofs.UploadStems

namespace JobSpool

open Files (Tree Place File Object)

/-! ### What events tell -/

/-- What an event tells: the counts that hold from now on, or that there are none any more.  A
failure tells nothing. -/
def ProgressEvent.told? : ProgressEvent → Option (Option Progress)
  | advanced p => some (some p)
  | completed => some none
  | failed _ => none

/-- Does an event report a failure? -/
def ProgressEvent.isFailure : ProgressEvent → Bool
  | failed _ => true
  | advanced _ | completed => false

/-- The counts that hold after some events, if there are any. -/
def lastTold (events : List ProgressEvent) : Option Progress :=
  (events.filterMap (·.told?)).getLast?.join

/-- The event that comes last counts, if it tells anything about the counts. -/
theorem lastTold_concat (events : List ProgressEvent) (event : ProgressEvent) :
    lastTold (events ++ [event]) = event.told?.getD (lastTold events) := by
  rw [lastTold, List.filterMap_append, lastTold]
  cases htold : event.told? with
  | none => simp [htold]
  | some told => simp [htold]

namespace ProgressFile

/-! ### A file that follows events -/

/-- Lets a progress file follow events, each of them at its time. -/
def recordAll (path : Path) (events : List (Instant × ProgressEvent)) (t : Tree) : Tree :=
  events.foldl (fun t told => record path told.1 t told.2) t

/-- Can the progress file of a stem be written in a folder? -/
structure Writable (folder : Path) (mode : Nat) (stem : String) : Prop where
  plain : FileName.isPlain stem = true
  changeable : ((Object.folder mode).mayWrite && (Object.folder mode).maySearch) = true
  name : (Artifact.progress.fileName stem).utf8ByteSize ≤ Files.nameLimit
  path : (path folder stem).text.utf8ByteSize < Files.pathLimit

/-- The place of the progress file of a stem in the folder at a place. -/
def placeIn (place : Place) (stem : String) : Place :=
  place ++ [.text (Artifact.progress.fileName stem)]

/-- A progress file as it was written. -/
def written (p : Progress) (now : Instant) : File :=
  ⟨p.line.toByteArray, Files.fileMode, now⟩

/-- A progress file can be read, -/
theorem mayRead_written (p : Progress) (now : Instant) :
    (Object.file (written p now)).mayRead = true := by
  have hmode : (Object.file (written p now)).mode = Files.fileMode := rfl
  rw [Object.mayRead, hmode]
  decide

/-- and written again. -/
theorem mayWrite_written (p : Progress) (now : Instant) :
    (Object.file (written p now)).mayWrite = true := by
  have hmode : (Object.file (written p now)).mode = Files.fileMode := rfl
  rw [Object.mayWrite, hmode]
  decide

/-- Does a tree differ from an earlier one in a progress file only, which holds the counts that
were told last?  If there are none, there is no file. -/
structure Follows (folder : Path) (place : Place) (mode : Nat) (stem : String) (before : Tree)
    (last : Option Progress) (t : Tree) : Prop where
  leads : t.Leads folder place mode
  home : t.home = before.home
  other : ∀ other, other ≠ placeIn place stem → t.at? other = before.at? other
  file : ∃ now, t.at? (placeIn place stem) = last.map fun p => .file (written p now)

variable {t before : Tree} {folder : Path} {place : Place} {mode : Nat} {stem : String}
  {last : Option Progress}

namespace Writable

/-- A progress file that can be written has a legal name, -/
theorem isLegal (hw : Writable folder mode stem) :
    (Files.Name.text (Artifact.progress.fileName stem)).IsLegal :=
  ⟨FileName.isStep_of_isPlain (Artifact.isPlain_fileName .progress hw.plain), hw.name⟩

/-- in a folder that may be searched, -/
theorem maySearch (hw : Writable folder mode stem) :
    (Object.folder mode).maySearch = true :=
  (Bool.and_eq_true_iff.1 hw.changeable).2

/-- under a path that is not too long. -/
theorem refusal?_eq_none (hw : Writable folder mode stem) (hl : t.Leads folder place mode) :
    Tree.refusal? (ProgressFile.path folder stem) = none :=
  Tree.refusal?_join_eq_none (Tree.find_eq_ok_iff.1 hl.find).1 hw.isLegal.1
    (FileName.isPlain_iff.1 (Artifact.isPlain_fileName .progress hw.plain)).2.2 hw.path

end Writable

namespace Follows

/-- Filling the progress file with new counts. -/
theorem put (h : Follows folder place mode stem before last t) (hw : Writable folder mode stem)
    (p : Progress) (now : Instant) :
    Follows folder place mode stem before (some p)
      (t.put (placeIn place stem) (.file (written p now))) := by
  have hfree : t.FileOrFree (placeIn place stem) := by
    intro o ho
    obtain ⟨written, hfile⟩ := h.file
    rw [hfile, Option.map_eq_some_iff] at ho
    obtain ⟨q, -, rfl⟩ := ho
    exact ⟨_, rfl⟩
  have hfills := Tree.fills_put h.leads.sound h.leads.at? hw.isLegal hfree (written p now)
  refine ⟨Store.leads_of_fills h.leads hfree hfills, hfills.home.trans h.home, fun other hne => ?_,
    now, Tree.at?_put_self (by simp [placeIn])⟩
  exact (hfills.other other hne).trans (h.other other hne)

/-- Taking the progress file away. -/
theorem without (h : Follows folder place mode stem before last t)
    {f : File} (hf : t.at? (placeIn place stem) = some (.file f)) :
    Follows folder place mode stem before none (t.without [placeIn place stem]) := by
  have hfiles : t.AllFiles [placeIn place stem] := by
    intro other hother
    rw [List.mem_singleton.1 hother]
    exact ⟨f, hf⟩
  refine ⟨h.leads.without hfiles, h.home, fun other hne => ?_, 0, ?_⟩
  · rw [Tree.at?_without_of_notMem (by simpa using hne)]
    exact h.other other hne
  · rw [Tree.at?_without (by simp [placeIn]), if_pos (List.mem_singleton_self _)]
    rfl

/-- **An advance is written,** over the counts that were there or where nothing was. -/
theorem advanced (h : Follows folder place mode stem before last t)
    (hw : Writable folder mode stem) (now : Instant) (p : Progress) :
    Follows folder place mode stem before (some p)
      (record (ProgressFile.path folder stem) now t (.advanced p)) := by
  have hr := hw.refusal?_eq_none h.leads
  have hwrite : t.write (ProgressFile.path folder stem) p.line.toByteArray now
      = .ok (t.put (placeIn place stem) (.file (written p now))) := by
    obtain ⟨before, hfile⟩ := h.file
    cases last with
    | none =>
      have hm := h.leads.mayChange.trans hw.changeable
      exact h.leads.write_free hw.isLegal hr hm hfile _ now
    | some q =>
      exact h.leads.write_file hr hw.maySearch (Tree.fileAt?_eq_some_iff.2 hfile)
        (mayWrite_written q before) _ now
  rw [record, hwrite]
  exact h.put hw p now

/-- **Completion removes the file,** if there is one. -/
theorem completed (h : Follows folder place mode stem before last t)
    (hw : Writable folder mode stem) (now : Instant) :
    Follows folder place mode stem before none
      (record (ProgressFile.path folder stem) now t .completed) := by
  have hr := hw.refusal?_eq_none h.leads
  obtain ⟨before, hfile⟩ := h.file
  cases last with
  | none =>
    rw [record, ProgressFile.path, h.leads.remove_free hw.isLegal hr hw.maySearch hfile]
    exact h
  | some q =>
    have hm := h.leads.mayChange.trans hw.changeable
    rw [record, ProgressFile.path,
      h.leads.remove_eq (Tree.fileAt?_eq_some_iff.2 hfile) hr hm]
    exact h.without hfile

/-- **The file follows every event.** -/
theorem record (h : Follows folder place mode stem before last t)
    (hw : Writable folder mode stem) (now : Instant) (event : ProgressEvent) :
    Follows folder place mode stem before (event.told?.getD last)
      (ProgressFile.record (ProgressFile.path folder stem) now t event) := by
  cases event with
  | advanced p => exact h.advanced hw now p
  | completed => exact h.completed hw now
  | failed reason => exact h

/-- **And so it follows any number of them.** -/
theorem recordAll (hl : t.Leads folder place mode) (hw : Writable folder mode stem)
    (hfree : t.at? (placeIn place stem) = none) (events : List (Instant × ProgressEvent)) :
    Follows folder place mode stem t (lastTold (events.map (·.2)))
      (recordAll (ProgressFile.path folder stem) events t) := by
  induction events using List.reverseRecOn with
  | nil => exact ⟨hl, rfl, fun _ _ => rfl, 0, hfree⟩
  | append_singleton events event ih =>
    rw [List.map_append, List.map_singleton, lastTold_concat, ProgressFile.recordAll,
      List.foldl_append]
    exact ih.record hw event.1 event.2

/-! ### What is read and what is listed -/

/-- **A reader gets what was told last.** -/
theorem read?_eq (h : Follows folder place mode stem before last t)
    (hw : Writable folder mode stem) : read? t (ProgressFile.path folder stem) = last := by
  have hr := hw.refusal?_eq_none h.leads
  obtain ⟨now, hfile⟩ := h.file
  cases last with
  | none =>
    have hlocate : t.locate .target (folder.join (Artifact.progress.fileName stem))
        = .ok (.vacant place (Artifact.progress.fileName stem)) :=
      h.leads.locate_free hw.isLegal hr hw.maySearch hfile
    simp [read?, Tree.readText, Tree.read, Tree.opened, Tree.find, ProgressFile.path, hlocate]
  | some p =>
    have htext : t.textOf? folder (Artifact.progress.fileName stem) (written p now)
        = some p.line := by
      have haccepted : (Tree.refusal? (folder.join (Artifact.progress.fileName stem))).isNone
          = true := Option.isNone_iff_eq_none.2 hr
      rw [Tree.textOf?, h.leads.isSearchable, hw.maySearch, haccepted, mayRead_written]
      exact (if_pos rfl).trans (Text.strict_toByteArray p.line)
    rw [ProgressFile.path, read?_join h.leads (Tree.fileAt?_eq_some_iff.2 hfile), htext,
      Option.bind_some]
    exact Progress.ofText?_line p

/-- **A listing sees the same.** -/
theorem toldProgress?_eq (h : Follows folder place mode stem before last t)
    (hw : Writable folder mode stem) {c : Config}
    (howns : c.hitList.owns (Artifact.progress.fileName stem) = false) :
    Spool.toldProgress? c t folder place stem = last := by
  have hread := h.read?_eq hw
  obtain ⟨now, hfile⟩ := h.file
  rw [Spool.toldProgress?, Spool.jobFile?_of_isPlain hw.plain howns]
  cases last with
  | none =>
    have hnone : t.fileAt? place (Artifact.progress.fileName stem) = none := by
      rw [Tree.fileAt?, ← placeIn, hfile]
      rfl
    rw [hnone]
    rfl
  | some p =>
    have hsome := Tree.fileAt?_eq_some_iff.2 hfile
    rw [hsome, ← hread, ProgressFile.path, read?_join h.leads hsome]
    rfl

/-- **A listing shows the stem as running with the counts that were told last.** -/
theorem mem_running_iff {c : Config} {p : Principal}
    (h : Follows (c.store.folder p) place mode stem before last t)
    (hw : Writable (c.store.folder p) mode stem)
    (howns : c.hitList.owns (Artifact.progress.fileName stem) = false)
    {entries : List Entry} (hentries : Store.list (c.store.folder p) t = .ok entries)
    (q : Progress) :
    (∃ j ∈ (Spool.listingOf c p t entries).running, j.stem = stem ∧ j.progress = some q) ↔
      last = some q := by
  rw [Spool.exists_running_iff h.leads hentries (FileName.isPlain_iff.1 hw.plain).1.1,
    h.toldProgress?_eq hw howns]

end Follows

/-- **Failures leave no trace,** wherever they stand among the events. -/
theorem recordAll_filter_isFailure (path : Path) (events : List (Instant × ProgressEvent))
    (t : Tree) :
    recordAll path (events.filter fun told => !told.2.isFailure) t = recordAll path events t := by
  induction events generalizing t with
  | nil => rfl
  | cons told events ih =>
    obtain ⟨now, event⟩ := told
    cases event with
    | failed reason => exact ih t
    | advanced p => exact ih _
    | completed => exact ih _

/-- **The progress that was told last is delivered.**  A worker tells its progress by events, in a
folder where its progress file can be written and does not stand yet.  Whatever the events and their
times, a reader of the file then gets the counts of the last advance, or nothing if the job was
completed after it or there was none; failures make no difference, and nothing else in the tree
changes.  If the folder may be read too, a listing for its principal succeeds, and shows the stem
as running with some counts exactly if a reader gets these; the file may not be of the hit list. -/
theorem progress_delivered (hl : t.Leads folder place mode) (hw : Writable folder mode stem)
    (hfree : t.at? (placeIn place stem) = none) (events : List (Instant × ProgressEvent)) :
    let after := recordAll (path folder stem) events t
    read? after (path folder stem) = lastTold (events.map (·.2)) ∧
      recordAll (path folder stem) (events.filter fun told => !told.2.isFailure) t = after ∧
      after.home = t.home ∧
      (∀ other, other ≠ placeIn place stem → after.at? other = t.at? other) ∧
      ∀ (c : Config) (p : Principal), c.store.folder p = folder →
        (Object.folder mode).mayRead = true →
          c.hitList.owns (Artifact.progress.fileName stem) = false →
            ∃ l, Spool.listJobs c p after = .ok l ∧ ∀ q,
              (∃ j ∈ l.running, j.stem = stem ∧ j.progress = some q) ↔
                read? after (path folder stem) = some q := by
  intro after
  have hfollows := Follows.recordAll hl hw hfree events
  have hread := hfollows.read?_eq hw
  refine ⟨hread, recordAll_filter_isFailure _ events t, hfollows.home, hfollows.other, ?_⟩
  rintro c p rfl hlisted howns
  obtain ⟨entries, hentries⟩ := Store.exists_list_eq_ok hfollows.leads hlisted
  refine ⟨_, Spool.listJobs_eq hfollows.leads hentries, fun q => ?_⟩
  rw [hread]
  exact hfollows.mem_running_iff hw howns hentries q

/-- A folder of a principal, with nothing in it. -/
def oneFolder (mode : Nat) : Tree where
  entries := [([.text "y"], .folder mode)]
  home := []

/-- The principal of the folder. -/
def folderOwner : Principal :=
  ⟨"y", by decide⟩

/-- Two advances with a failure in between and another after them; the last count is the largest
that there is. -/
def someEvents : List (Instant × ProgressEvent) :=
  [(0, .completed), (1, .advanced ⟨1, 2⟩), (2, .failed "x"),
    (1, .advanced ⟨3, 18446744073709551615⟩), (7, .failed "")]

/-- Counts up to the largest are delivered, for a stem with a dot in it. -/
theorem progress_delivered_largest :
    (oneFolder 0o755).Leads ⟨"/y"⟩ [.text "y"] 0o755 ∧ Writable ⟨"/y"⟩ 0o755 "a.b" ∧
      read? (recordAll (path ⟨"/y"⟩ "a.b") someEvents (oneFolder 0o755)) (path ⟨"/y"⟩ "a.b")
        = some ⟨3, 18446744073709551615⟩ ∧
      ∃ l, Spool.listJobs (.withJobRoot ⟨"/"⟩) folderOwner
          (recordAll (path ⟨"/y"⟩ "a.b") someEvents (oneFolder 0o755)) = .ok l ∧
        ∃ j ∈ l.running, j.stem = "a.b" ∧ j.progress = some ⟨3, 18446744073709551615⟩ := by
  have hl : (oneFolder 0o755).Leads ⟨"/y"⟩ [.text "y"] 0o755 := ⟨by decide, rfl⟩
  have hw : Writable ⟨"/y"⟩ 0o755 "a.b" := ⟨by decide, by decide, by decide, by decide⟩
  obtain ⟨hread, -, -, -, hlist⟩ := progress_delivered hl hw (by decide) someEvents
  obtain ⟨l, hl', hshown⟩ := hlist (.withJobRoot ⟨"/"⟩) folderOwner (by decide) (by decide)
    (by decide)
  exact ⟨hl, hw, hread, l, hl', (hshown _).2 hread⟩

/-! ### Files that cannot be written -/

/-- A path that is not refused for its length is short enough. -/
theorem size_lt_of_refusal? {p : Path} (h : Tree.refusal? p = none) :
    p.text.utf8ByteSize < Files.pathLimit := by
  refine Nat.lt_of_not_le fun hlong => ?_
  rw [Tree.refusal?, if_pos hlong] at h
  split at h
  · cases h
  · split at h <;> cases h

/-- Does the file always hold what was told last? -/
def Delivers (t : Tree) (folder : Path) (stem : String) : Prop :=
  ∀ events, read? (recordAll (path folder stem) events t) (path folder stem)
    = lastTold (events.map (·.2))

/-- Is the progress file found by its path, as far as names and permissions go? -/
def IsReachable (folder : Path) (mode : Nat) (stem : String) : Prop :=
  Tree.refusal? (path folder stem) = none ∧ (Object.folder mode).maySearch = true ∧
    (Artifact.progress.fileName stem).utf8ByteSize ≤ Files.nameLimit

/-- A progress file that cannot be reached is refused to whoever asks for it. -/
theorem exists_locate_error (hl : t.Leads folder place mode)
    (hplain : FileName.isPlain stem = true) (h : ¬ IsReachable folder mode stem) (aim : Files.Aim) :
    ∃ fault, t.locate aim (path folder stem) = .error fault := by
  cases hspot : t.locate aim (path folder stem) with
  | error fault => exact ⟨fault, rfl⟩
  | ok spot =>
    have hn := FileName.isStep_of_isPlain (Artifact.isPlain_fileName .progress hplain)
    obtain ⟨hr, hm, hlegal, -⟩ := hl.locate_eq_ok hn hspot
    exact absurd ⟨hr, hm, hlegal.2⟩ h

/-- **What is not found is not written,** and nothing changes. -/
theorem record_advanced_eq_self (hl : t.Leads folder place mode)
    (hplain : FileName.isPlain stem = true) (h : ¬ IsReachable folder mode stem) (now : Instant)
    (progress : Progress) : record (path folder stem) now t (.advanced progress) = t := by
  obtain ⟨fault, hfile⟩ := exists_locate_error hl hplain h .file
  simp [record, Tree.write, hfile, orUnchanged]

/-- **What no path leads to is never delivered,** and the worker is not told. -/
theorem not_delivers (hl : t.Leads folder place mode) (hplain : FileName.isPlain stem = true)
    (h : ¬ IsReachable folder mode stem) : ¬ Delivers t folder stem := by
  intro hdelivers
  obtain ⟨fault, htarget⟩ := exists_locate_error hl hplain h .target
  have htold := hdelivers [(0, .advanced ⟨1, 2⟩)]
  have hwrite : recordAll (path folder stem) [(0, .advanced ⟨1, 2⟩)] t = t :=
    record_advanced_eq_self hl hplain h 0 ⟨1, 2⟩
  have hnone : read? t (path folder stem) = none := by
    simp [read?, Tree.readText, Tree.read, Tree.opened, Tree.find, htarget]
  rw [hwrite, hnone] at htold
  cases htold

/-- A text that repeats one character. -/
def copies (c : Char) : Nat → String
  | 0 => ""
  | n + 1 => (copies c n).push c

/-- A text of copies has no other character. -/
theorem eq_of_mem_copies {c d : Char} {n : Nat} (hd : d ∈ (copies c n).toList) : d = c := by
  induction n with
  | zero => simp [copies] at hd
  | succ n ih =>
    rw [copies, String.toList_push, List.mem_append, List.mem_singleton] at hd
    exact hd.elim ih id

/-- A text of copies of a character of one byte has as many bytes as copies. -/
theorem utf8ByteSize_copies {c : Char} (hc : c.utf8Size = 1) (n : Nat) :
    (copies c n).utf8ByteSize = n := by
  induction n with
  | zero => rfl
  | succ n ih => rw [copies, String.utf8ByteSize_push, ih, hc]

/-- A text of at least one copy is not empty. -/
theorem toList_copies_ne_nil (c : Char) (n : Nat) : (copies c (n + 1)).toList ≠ [] := by
  simp [copies]

/-- A path of slashes has no steps. -/
theorem pieces_slashes (n : Nat) : ∀ piece ∈ Path.pieces (copies '/' n).toList, piece = [] := by
  induction n with
  | zero => simp [copies, Path.pieces]
  | succ n ih =>
    intro piece hpiece
    rw [copies, String.toList_push, Path.pieces_append_slash, List.mem_append] at hpiece
    rcases hpiece with hpiece | hpiece
    · exact ih piece hpiece
    · simpa [Path.pieces] using hpiece

/-- **Slashes lead to the root,** unless they are too many. -/
theorem leads_slashes (hs : t.Sound) {n : Nat} (h : n + 1 < Files.pathLimit) :
    t.Leads ⟨copies '/' (n + 1)⟩ [] Files.folderMode := by
  have hne := toList_copies_ne_nil '/' n
  have hsteps : Path.steps ⟨copies '/' (n + 1)⟩ = [] := by
    rw [Path.steps, List.filterMap_eq_nil_iff]
    intro piece hpiece
    rw [pieces_slashes _ piece hpiece]
    rfl
  have habsolute : Path.isAbsolute ⟨copies '/' (n + 1)⟩ = true := by
    obtain ⟨c, cs, hcs⟩ := List.exists_cons_of_ne_nil hne
    have hc : c = '/' := eq_of_mem_copies (hcs ▸ List.mem_cons_self)
    rw [Path.isAbsolute, hcs, hc]
    rfl
  have hr : Tree.refusal? ⟨copies '/' (n + 1)⟩ = none := by
    have hnull : '\x00' ∉ (copies '/' (n + 1)).toList := fun hmem =>
      absurd (eq_of_mem_copies hmem) (by decide)
    have hempty : (copies '/' (n + 1)).isEmpty = false :=
      Path.isEmpty_eq_false (p := ⟨copies '/' (n + 1)⟩) hne
    have hsize := utf8ByteSize_copies (by decide : '/'.utf8Size = 1) (n + 1)
    simp [Tree.refusal?, hempty, hnull, hsize, Nat.not_le.2 h]
  refine ⟨hs, Tree.find_eq_ok_iff.2 ⟨hr, ?_⟩⟩
  rw [hsteps, Tree.start, habsolute]
  exact Tree.walk_nil t _ _ _ rfl

/-- The name of a progress file is six bytes longer than its stem. -/
theorem utf8ByteSize_fileName (stem : String) :
    (Artifact.progress.fileName stem).utf8ByteSize = stem.utf8ByteSize + 6 := by
  have hextension : "count".utf8ByteSize = 5 := rfl
  have hsize := FileName.utf8ByteSize_ofParts stem "count"
  rw [hextension] at hsize
  exact hsize

/-- Letters make a safe name. -/
theorem isSafe_copies (n : Nat) : FileName.IsSafe (copies 'a' (n + 1)) := by
  have honly : ∀ d ∈ (copies 'a' (n + 1)).toList, d = 'a' := fun d => eq_of_mem_copies
  have hbar : '_' ∉ (copies 'a' (n + 1)).toList := fun hmem => absurd (honly _ hmem) (by decide)
  refine ⟨fun hempty => ?_, fun d hd => ?_, fun hhead => ?_, fun hlast => ?_⟩
  · exact toList_copies_ne_nil 'a' n (String.toList_eq_nil_iff.2 hempty)
  · rw [honly d hd]
    decide
  · exact hbar (List.mem_of_mem_head? hhead)
  · exact hbar (List.mem_of_mem_getLast? hlast)

/-- **The progress is not always delivered,** though the stem is plain, and the folder may be
written and has no progress file yet.  It is not if the name of the file is too long, if its path is
too long, or if no name is found in the folder.  A folder that may not be read is not listed. -/
theorem progress_not_always_delivered :
    ¬ (∀ (t : Tree) (folder : Path) (place : Place) (mode : Nat) (stem : String),
      t.Leads folder place mode → (Object.folder mode).mayWrite = true →
        FileName.isPlain stem = true → t.at? (placeIn place stem) = none →
          (Object.folder mode).maySearch = true →
            (path folder stem).text.utf8ByteSize < Files.pathLimit → Delivers t folder stem) ∧
    ¬ (∀ (t : Tree) (folder : Path) (place : Place) (mode : Nat) (stem : String),
      t.Leads folder place mode → (Object.folder mode).mayWrite = true →
        FileName.isPlain stem = true → t.at? (placeIn place stem) = none →
          (Object.folder mode).maySearch = true →
            (Artifact.progress.fileName stem).utf8ByteSize ≤ Files.nameLimit →
              Delivers t folder stem) ∧
    ¬ (∀ (t : Tree) (folder : Path) (place : Place) (mode : Nat) (stem : String),
      t.Leads folder place mode → (Object.folder mode).mayWrite = true →
        FileName.isPlain stem = true → t.at? (placeIn place stem) = none →
          (Artifact.progress.fileName stem).utf8ByteSize ≤ Files.nameLimit →
            (path folder stem).text.utf8ByteSize < Files.pathLimit → Delivers t folder stem) ∧
    ¬ (∀ (t : Tree) (c : Config) (p : Principal) (place : Place) (mode : Nat) (stem : String)
        (events : List (Instant × ProgressEvent)) (q : Progress),
      t.Leads (c.store.folder p) place mode → Writable (c.store.folder p) mode stem →
        t.at? (placeIn place stem) = none →
          c.hitList.owns (Artifact.progress.fileName stem) = false →
            lastTold (events.map (·.2)) = some q →
              ∃ l, Spool.listJobs c p (recordAll (path (c.store.folder p) stem) events t) = .ok l ∧
                ∃ j ∈ l.running, j.stem = stem ∧ j.progress = some q) := by
  refine ⟨fun h => ?_, fun h => ?_, fun h => ?_, fun h => ?_⟩
  -- A name of 256 bytes.
  · have hl : (oneFolder 0o755).Leads ⟨"/y"⟩ [.text "y"] 0o755 := ⟨by decide, rfl⟩
    have hplain : FileName.isPlain (copies 'a' 250) = true := (isSafe_copies 249).isWord.isPlain
    have hname : (Artifact.progress.fileName (copies 'a' 250)).utf8ByteSize = 256 := by
      rw [utf8ByteSize_fileName, utf8ByteSize_copies (by decide)]
    have hlimit : Files.nameLimit = 255 := rfl
    have hpath : (path ⟨"/y"⟩ (copies 'a' 250)).text.utf8ByteSize < Files.pathLimit := by
      rw [path, Path.join_eq (by decide)
        (FileName.isStep_of_isPlain (Artifact.isPlain_fileName .progress hplain)),
        if_neg (by decide), String.utf8ByteSize_append, hname]
      decide
    have hfar : ¬ IsReachable ⟨"/y"⟩ 0o755 (copies 'a' 250) := by
      rintro ⟨-, -, hsize⟩
      omega
    refine not_delivers hl hplain hfar ?_
    exact h _ _ _ _ _ hl (by decide) hplain rfl (by decide) hpath
  -- A folder whose path is one byte short of the limit, as the root can be written.
  · have hl : (oneFolder 0o755).Leads ⟨copies '/' 4095⟩ [] Files.folderMode :=
      leads_slashes (by decide) (by decide)
    have hplain : FileName.isPlain "a" = true := by decide
    have hlong : ¬ (path ⟨copies '/' 4095⟩ "a").text.utf8ByteSize < Files.pathLimit := by
      obtain ⟨slash, htext⟩ := Path.text_join hl.text_ne_nil
        (FileName.isStep_of_isPlain (Artifact.isPlain_fileName .progress hplain))
      rw [path, htext, String.utf8ByteSize_append, String.utf8ByteSize_append,
        utf8ByteSize_copies (by decide)]
      have hname := utf8ByteSize_fileName "a"
      have hlimit : Files.pathLimit = 4096 := rfl
      omega
    refine not_delivers hl hplain (fun hfound => hlong (size_lt_of_refusal? hfound.1)) ?_
    exact h _ _ _ _ _ hl (by decide) hplain (by decide) (by decide) (by decide)
  -- A folder that may not be searched.
  · have hl : (oneFolder 0o600).Leads ⟨"/y"⟩ [.text "y"] 0o600 := ⟨by decide, rfl⟩
    have hclosed : ¬ (Object.folder 0o600).maySearch = true := by decide
    have hplain : FileName.isPlain "a" = true := by decide
    refine not_delivers hl hplain (fun hfound => hclosed hfound.2.1) ?_
    exact h _ _ _ _ _ hl (by decide) hplain (by decide) (by decide) (by decide)
  -- A folder that may not be read: the file is written, but nothing is listed.
  · have hl : (oneFolder 0o300).Leads ⟨"/y"⟩ [.text "y"] 0o300 := ⟨by decide, rfl⟩
    have hw : Writable ⟨"/y"⟩ 0o300 "a" := ⟨by decide, by decide, by decide, by decide⟩
    let events : List (Instant × ProgressEvent) := [(0, .advanced ⟨1, 2⟩)]
    have hfollows := Follows.recordAll hl hw (by decide) events
    obtain ⟨l, hlist, j, hj, -⟩ := h (oneFolder 0o300) (.withJobRoot ⟨"/"⟩) folderOwner _ _ "a"
      events ⟨1, 2⟩ hl hw (by decide) (by decide) rfl
    rcases Spool.listJobs_eq_ok hfollows.leads.sound hlist with
      rfl | ⟨_, _, entries, -, hentries, -⟩
    · cases hj
    · have hread := ((Store.list_eq_ok_iff hfollows.leads).1 hentries).1
      exact absurd hread (by decide)

end ProgressFile
end JobSpool
