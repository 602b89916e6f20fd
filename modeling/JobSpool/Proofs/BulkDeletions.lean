/-
# Deletions of many stems

`delete_jobs`: `SPEC_FULL.md`, 7 ("each removal is independent and best-effort") and 8
(idempotence).

A deletion of many stems deletes one after another, and each looks at the folder as the ones
before have left it.  What it removes in the end is known from the folder as it was
(`doomedFiles`): every file that some stem of the list takes.  This is the induction over the
stems in `deleteJobs_eq`, whose step is one deletion: what the first stem takes, and what the
others take of the rest, are together what all of them take (`append_perm_doomedFiles`).

So no file is removed twice, the order of the stems and their repetition do not show, and a
second run finds nothing left.  Which files go can be said by their names alone (`IsNamed`),
since a file of the hit list goes with the name of the hit list and no other file does.
-/

import JobSpool.Proofs.Deletions

namespace JobSpool

open Files (Tree Place File Object)

namespace Spool

variable {c : Config} {p : Principal} {t : Tree} {place : Place} {mode : Nat}
  {entries : List Entry} {stem : String} {stems stems' : List String}

/-! ### The files that go -/

/-- Does some stem of a list take a file? -/
def isDoomed (c : Config) (stems : List String) (e : Entry) : Bool :=
  stems.any fun stem => FileName.isPlain stem && isDeletedWith c stem e

/-- The files of a listing that some stem takes. -/
def doomedFiles (c : Config) (stems : List String) (entries : List Entry) : List Entry :=
  entries.filter (isDoomed c stems)

/-- The failures that a list of stems calls for: one for each stem that is not plain. -/
def refusals (stems : List String) : List RemovalFailure :=
  (stems.filter fun stem => !FileName.isPlain stem).map fun stem =>
    ⟨stem, (Error.storage (.invalidName stem)).userMessage⟩

/-- Does a list of stems name a file?  A file of the hit list is named by the name of the hit
list, and any other file by its stem, if that is plain and not the name of the hit list. -/
def IsNamed (c : Config) (stems : List String) (name : String) : Prop :=
  (c.hitList.owns name = true ∧ c.hitList.fileName ∈ stems) ∨
    (c.hitList.owns name = false ∧ (FileName.split name).1 ∈ stems ∧
      FileName.isPlain (FileName.split name).1 = true ∧
        (FileName.split name).1 ≠ c.hitList.fileName)

/-- **The files that go are those that are named.** -/
theorem isDoomed_ofName (hc : c.IsAccepted) {name : String} {path : Path}
    {modified : Option Instant} :
    isDoomed c stems (.ofName name path modified) = true ↔ IsNamed c stems name := by
  simp only [isDoomed, List.any_eq_true, Bool.and_eq_true, isDeletedWith_ofName, IsDeletedWith]
  constructor
  · rintro ⟨stem, hmem, hplain, hdeleted⟩
    split at hdeleted
    · rename_i hstem
      exact Or.inl ⟨hdeleted, hstem ▸ hmem⟩
    · rename_i hstem
      obtain ⟨rfl, howns⟩ := hdeleted
      exact Or.inr ⟨howns, hmem, hplain, hstem⟩
  · rintro (⟨howns, hmem⟩ | ⟨howns, hmem, hplain, hne⟩)
    · exact ⟨_, hmem, hc.isPlain_fileName, by rwa [if_pos rfl]⟩
    · exact ⟨_, hmem, hplain, by rw [if_neg hne]; exact ⟨rfl, howns⟩⟩

/-- Which files go depends on what stems are in the list, not on their order and repetition. -/
theorem isDoomed_congr (h : ∀ stem, stem ∈ stems' ↔ stem ∈ stems) :
    isDoomed c stems' = isDoomed c stems := by
  funext e
  rw [Bool.eq_iff_iff, isDoomed, isDoomed, List.any_eq_true, List.any_eq_true]
  exact exists_congr fun stem => and_congr_left fun _ => h stem

/-- Lists of the same stems take the same files, in the order of the folder. -/
theorem doomedFiles_congr (c : Config) (entries : List Entry)
    (h : ∀ stem, stem ∈ stems' ↔ stem ∈ stems) :
    doomedFiles c stems' entries = doomedFiles c stems entries := by
  rw [doomedFiles, isDoomed_congr h, doomedFiles]

/-- A stem that is not plain takes no file. -/
theorem doomedFiles_cons_of_not_isPlain (h : FileName.isPlain stem = false) :
    doomedFiles c (stem :: stems) entries = doomedFiles c stems entries := by
  refine List.filter_congr fun e _ => ?_
  rw [isDoomed, List.any_cons, h, Bool.false_and, Bool.false_or, isDoomed]

/-- **What one stem takes, and what others take of the rest,** is what they take together. -/
theorem append_perm_doomedFiles (c : Config) (stems : List String) (entries : List Entry)
    (h : FileName.isPlain stem = true) :
    (deletedFiles c stem entries ++ doomedFiles c stems (keptWithout c stem entries)).Perm
      (doomedFiles c (stem :: stems) entries) := by
  have hcons : ∀ e, isDoomed c (stem :: stems) e
      = (isDeletedWith c stem e || isDoomed c stems e) := fun e => by
    rw [isDoomed, List.any_cons, h, Bool.true_and, isDoomed]
  have hfirst : deletedFiles c stem entries
      = (doomedFiles c (stem :: stems) entries).filter (isDeletedWith c stem) := by
    rw [deletedFiles, doomedFiles, List.filter_filter]
    refine List.filter_congr fun e _ => ?_
    rw [hcons]
    cases isDeletedWith c stem e <;> simp
  have hrest : doomedFiles c stems (keptWithout c stem entries)
      = (doomedFiles c (stem :: stems) entries).filter (fun e => !isDeletedWith c stem e) := by
    rw [doomedFiles, keptWithout, doomedFiles, List.filter_filter, List.filter_filter]
    refine List.filter_congr fun e _ => ?_
    rw [hcons]
    cases isDeletedWith c stem e <;> simp
  rw [hfirst, hrest]
  exact List.filter_append_perm _ _

/-- Nothing is left for a second run. -/
theorem doomedFiles_filter_not_isDoomed (c : Config) (stems : List String)
    (entries : List Entry) :
    doomedFiles c stems (entries.filter fun e => !isDoomed c stems e) = [] := by
  rw [doomedFiles, List.filter_filter, List.filter_eq_nil_iff]
  intro e _
  rw [Bool.and_not_self]
  exact Bool.false_ne_true

/-! ### The run over the stems -/

/-- A deletion of many stems whose first one succeeds goes on with the tree that it leaves. -/
theorem deleteJobs_cons_of_ok {report : RemovalReport} {t' : Tree}
    (h : deleteJob c p stem t = .ok (report, t')) :
    deleteJobs c p (stem :: stems) t
      = (report.merge (deleteJobs c p stems t').1, (deleteJobs c p stems t').2) := by
  rw [deleteJobs, h]

/-- A first stem that is refused is reported, and the deletion goes on with the tree as it was. -/
theorem deleteJobs_cons_of_error {cause : Error} (h : deleteJob c p stem t = .error cause) :
    deleteJobs c p (stem :: stems) t
      = (RemovalReport.merge { failures := [⟨stem, cause.userMessage⟩] }
          (deleteJobs c p stems t).1, (deleteJobs c p stems t).2) := by
  rw [deleteJobs, h]

/-- **A run over stems removes what some stem takes,** each file once, and refuses the stems that
are not plain, in their order. -/
theorem deleteJobs_eq (hl : t.Leads (c.store.folder p) place mode)
    (hentries : Store.list (c.store.folder p) t = .ok entries)
    (hremove : Store.Removable t (c.store.folder p) place (doomedFiles c stems entries)) :
    ∃ removed, removed.Perm ((doomedFiles c stems entries).map (·.fileName)) ∧
      deleteJobs c p stems t = (⟨removed, refusals stems⟩,
        t.without ((doomedFiles c stems entries).map (Store.placeIn place))) := by
  -- The induction is over the stems, for any tree: the first deletion leaves another one.
  induction stems generalizing t entries with
  | nil =>
    have hnothing : doomedFiles c [] entries = [] := by simp [doomedFiles, isDoomed]
    rw [hnothing]
    exact ⟨[], .nil, by rw [List.map_nil, Tree.without_nil]; rfl⟩
  | cons stem stems ih =>
    cases hplain : FileName.isPlain stem with
    | false =>
      rw [doomedFiles_cons_of_not_isPlain hplain] at hremove ⊢
      obtain ⟨removed, hperm, hrun⟩ := ih hl hentries hremove
      refine ⟨removed, hperm, ?_⟩
      rw [deleteJobs_cons_of_error (deleteJob_of_not_isPlain hplain), hrun]
      simp [RemovalReport.merge, refusals, hplain]
    | true =>
      -- What this stem takes, and what the others take of the rest, is what all of them take.
      have hsplit := append_perm_doomedFiles c stems entries hplain
      have hboth := hremove.of_perm hsplit.symm
      have hl' := hl.without hboth.left.allFiles
      have hentries' : Store.list (c.store.folder p)
          (t.without ((deletedFiles c stem entries).map (Store.placeIn place)))
            = .ok (keptWithout c stem entries) := Store.list_without_filter hl hentries _
      obtain ⟨removed, hperm, hrun⟩ := ih hl' hentries' (hboth.without hl)
      refine ⟨(deletedFiles c stem entries).map (·.fileName) ++ removed, ?_, ?_⟩
      · refine (hperm.append_left _).trans ?_
        rw [← List.map_append]
        exact hsplit.map _
      · rw [deleteJobs_cons_of_ok (deleteJob_eq hl hentries hplain hboth.left), hrun]
        refine Prod.ext ?_ ?_
        · simp [RemovalReport.merge, refusals, hplain]
        · rw [Tree.without_append, ← List.map_append]
          exact t.without_congr fun _ => (hsplit.map _).mem_iff

/-! ### What a run has done -/

section Named

variable (hc : c.IsAccepted) (hl : t.Leads (c.store.folder p) place mode)
  (hentries : Store.list (c.store.folder p) t = .ok entries)

include hc hl hentries

/-- The names of the files that go. -/
theorem mem_doomedFiles_iff {name : String} :
    name ∈ (doomedFiles c stems entries).map (·.fileName) ↔
      IsNamed c stems name ∧ ∃ f, t.shownFile? place name = some f := by
  rw [List.mem_map]
  constructor
  · rintro ⟨e, he, rfl⟩
    obtain ⟨hlisted, hdoomed⟩ := List.mem_filter.1 he
    obtain ⟨name, f, hf, rfl⟩ := (Store.mem_list_iff hl hentries).1 hlisted
    rw [Entry.fileName_ofName]
    exact ⟨(isDoomed_ofName hc).1 hdoomed, f, hf⟩
  · rintro ⟨hnamed, f, hf⟩
    have hlisted := (Store.mem_list_iff hl hentries).2 ⟨name, f, hf, rfl⟩
    exact ⟨_, List.mem_filter.2 ⟨hlisted, (isDoomed_ofName hc).2 hnamed⟩,
      Entry.fileName_ofName _ _ _⟩

/-- If the files with the right names can be removed, so can all that go. -/
theorem removable_doomedFiles
    (hremove : ∀ name f, t.shownFile? place name = some f → IsNamed c stems name →
      ∃ t', t.remove ((c.store.folder p).join name) = .ok t') :
    Store.Removable t (c.store.folder p) place (doomedFiles c stems entries) := by
  have hlisted : Store.Listed t (c.store.folder p) place (doomedFiles c stems entries) :=
    (Store.listed_of_list hl hentries).sublist List.filter_sublist
  refine hlisted.removable fun name hname => ?_
  obtain ⟨hnamed, f, hf⟩ := (mem_doomedFiles_iff hc hl hentries).1 hname
  exact hremove name f hf hnamed

end Named

/-- Without a folder, a run removes nothing. -/
theorem deleteJobs_of_not_isFolder (h : t.isFolder (c.store.folder p) = false) :
    deleteJobs c p stems t = (⟨[], refusals stems⟩, t) := by
  induction stems with
  | nil => rfl
  | cons stem stems ih =>
    cases hplain : FileName.isPlain stem with
    | false =>
      rw [deleteJobs_cons_of_error (deleteJob_of_not_isPlain hplain), ih]
      simp [RemovalReport.merge, refusals, hplain]
    | true =>
      have hnothing : deleteJob c p stem t = .ok ({}, t) := by
        simp [deleteJob, hplain, h]
      rw [deleteJobs_cons_of_ok hnothing, ih]
      simp [RemovalReport.merge, refusals, hplain]

/-- **A deletion of many stems is exact.**  When every file that is named could be removed alone,
those files go and no others, each is reported once, and everything else stays as it was, wherever
it stands.  There is one failure for each time that a stem is given that is not plain, in the order
of the stems.  Other lists of the same stems, in any order and with any repetition, remove the same
files from the same tree, and a second run removes nothing. -/
theorem deleteJobs_exact (hc : c.IsAccepted) (hl : t.Leads (c.store.folder p) place mode)
    (hread : (Object.folder mode).mayRead = true)
    (hremove : ∀ name f, t.shownFile? place name = some f → IsNamed c stems name →
      ∃ t', t.remove ((c.store.folder p).join name) = .ok t') :
    ∃ removed t', deleteJobs c p stems t = (⟨removed, refusals stems⟩, t') ∧
      removed.Nodup ∧
      (∀ name, name ∈ removed ↔ IsNamed c stems name ∧ ∃ f, t.shownFile? place name = some f) ∧
      (∀ name ∈ removed, t'.at? (place ++ [.text name]) = none) ∧
      (∀ other, (∀ name ∈ removed, other ≠ place ++ [.text name]) →
        t'.at? other = t.at? other) ∧
      ∀ stems', (∀ stem, stem ∈ stems' ↔ stem ∈ stems) →
        (∃ removed', removed'.Perm removed ∧
          deleteJobs c p stems' t = (⟨removed', refusals stems'⟩, t')) ∧
        deleteJobs c p stems' t' = (⟨[], refusals stems'⟩, t') := by
  obtain ⟨entries, hentries⟩ := Store.exists_list_eq_ok hl hread
  have hdoomed := removable_doomedFiles hc hl hentries hremove
  obtain ⟨removed, hperm, hrun⟩ := deleteJobs_eq hl hentries hdoomed
  have hplace : ∀ other, other ∈ (doomedFiles c stems entries).map (Store.placeIn place) ↔
      ∃ name ∈ removed, other = place ++ [.text name] := by
    intro other
    simp only [Store.mem_map_placeIn_iff, hperm.mem_iff]
  refine ⟨removed, _, hrun, hperm.nodup_iff.2 hdoomed.distinct, fun name => ?_,
    fun name hname => ?_, fun other hother => ?_, fun stems' hsame => ⟨?_, ?_⟩⟩
  -- What is removed is what is named.
  · exact hperm.mem_iff.trans (mem_doomedFiles_iff hc hl hentries)
  -- It is gone,
  · rw [Tree.at?_without (by simp), if_pos ((hplace _).2 ⟨name, hname, rfl⟩)]
  -- and nothing else has changed.
  · refine Tree.at?_without_of_notMem fun hmem => ?_
    obtain ⟨name, hname, heq⟩ := (hplace other).1 hmem
    exact hother name hname heq
  -- Another list of the same stems takes the same files,
  · have hsameFiles := doomedFiles_congr c entries hsame
    obtain ⟨removed', hperm', hrun'⟩ := deleteJobs_eq hl hentries (hsameFiles ▸ hdoomed)
    rw [hsameFiles] at hperm' hrun'
    exact ⟨removed', hperm'.trans hperm.symm, hrun'⟩
  -- and a second run finds none of them.
  · have hentries' := Store.list_without_filter hl hentries (isDoomed c stems)
    have hnothing : doomedFiles c stems' (entries.filter fun e => !isDoomed c stems e) = [] := by
      rw [doomedFiles_congr c _ hsame, doomedFiles_filter_not_isDoomed]
    obtain ⟨removed', hperm', hrun'⟩ := deleteJobs_eq (hl.without hdoomed.allFiles) hentries'
      (hnothing.symm ▸ Store.Removable.nil)
    rw [hnothing, List.map_nil, List.perm_nil] at hperm'
    rw [hnothing, List.map_nil, Tree.without_nil, hperm'] at hrun'
    exact hrun'

/-! ### A run that refuses a stem -/

/-- In the folder of the example every file can be removed. -/
theorem removable_misleading {name : String} {f : File}
    (hf : misleading.shownFile? [.text "jobs", .text "q"] name = some f) :
    ∃ t', misleading.remove (Path.join ⟨"/jobs/q"⟩ name) = .ok t' := by
  rw [Tree.shownFile?_eq_some_iff, Tree.fileAt?_eq_some_iff,
    ← leads_misleading.sound.mem_children_iff] at hf
  have hname : name = "a\\b" ∨ name = "spamhaus.txt.log" ∨ name = "c.csv" := by
    rcases hf.2 with _ | ⟨_, _ | ⟨_, _ | ⟨_, h⟩⟩⟩
    · exact Or.inl rfl
    · exact Or.inr (Or.inl rfl)
    · exact Or.inr (Or.inr rfl)
    · cases h
  rcases hname with rfl | rfl | rfl <;> exact ⟨_, rfl⟩

/-- A run with a stem twice and one that is refused: a job named like the hit list keeps its
files. -/
theorem deleteJobs_exact_misleading :
    misleading.Leads ⟨"/jobs/q"⟩ [.text "jobs", .text "q"] Files.folderMode ∧
      ∃ removed t', deleteJobs (.withJobRoot ⟨"/jobs"⟩) misleadingOwner ["c", "a\\b", "c"]
          misleading = (⟨removed, [⟨"a\\b", "Invalid job name."⟩]⟩, t') ∧
        "c.csv" ∈ removed ∧ "spamhaus.txt.log" ∉ removed := by
  refine ⟨leads_misleading, ?_⟩
  have hremove : ∀ name f, misleading.shownFile? [.text "jobs", .text "q"] name = some f →
      IsNamed (.withJobRoot ⟨"/jobs"⟩) ["c", "a\\b", "c"] name →
        ∃ t', misleading.remove (Path.join ⟨"/jobs/q"⟩ name) = .ok t' :=
    fun name f hf _ => removable_misleading hf
  obtain ⟨removed, t', hrun, -, hremoved, -⟩ := deleteJobs_exact (p := misleadingOwner)
    Config.isAccepted_minimal leads_misleading (by decide) hremove
  refine ⟨removed, t', hrun, ?_, fun hmem => ?_⟩
  · exact (hremoved "c.csv").2 ⟨Or.inr ⟨by decide, by decide, by decide, by decide⟩, _, rfl⟩
  · obtain ⟨⟨howns, -⟩ | ⟨-, hstem, -⟩, -⟩ := (hremoved "spamhaus.txt.log").1 hmem
    · revert howns
      decide
    · revert hstem
      decide

end Spool
end JobSpool
