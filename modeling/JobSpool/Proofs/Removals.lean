/-
# What removals leave alone

Removals fail one by one, and whatever becomes of each, only files of the list can be gone
afterwards (`takesAway_removeEntries`).  A sweep and a deletion are such removals, so each of
them leaves alone what it does not mean to remove, be it that every removal succeeds or that
some fail: a deletion everything but the files of its stem (`spares_deleteJob`), and a sweep
everything but the files that `IsSwept` names (`spares_reconcile`).
-/

import JobSpool.Lifecycle.Delete
import JobSpool.Proofs.Edits
import JobSpool.Proofs.Reconcile

namespace JobSpool

open Files (Tree Place File Object)

namespace Store

/-! ### Removals that may fail -/

section Removing

variable {t t' t'' : Tree} {folder : Path} {place : Place} {mode : Nat} {e : Entry}
  {removed more : List Entry}

/-- Is an entry for a name in a folder, where a file stands or nothing? -/
structure IsEntryIn (t : Tree) (folder : Path) (place : Place) (e : Entry) : Prop where
  path : e.path = folder.join e.fileName
  isStep : Path.IsStep e.fileName
  free : t.FileOrFree (placeIn place e)

/-- What a listing holds are entries of the folder. -/
theorem isEntryIn_of_mem_list (hl : t.Leads folder place mode) {entries : List Entry}
    (hentries : list folder t = .ok entries) (he : e ∈ entries) :
    IsEntryIn t folder place e := by
  obtain ⟨name, f, hf, rfl⟩ := (mem_list_iff hl hentries).1 he
  have hfile := (Tree.shownFile?_eq_some_iff.1 hf).2
  have hat := Tree.fileAt?_eq_some_iff.1 hfile
  have hname : (Entry.ofName name (folder.join name) (t.knownTime? folder name f)).fileName
      = name := Entry.fileName_ofName name _ _
  refine ⟨by rw [hname]; rfl, by rw [hname]; exact (hl.sound.isLegal hat).1, ?_⟩
  rw [placeIn, hname]
  intro o ho
  rw [hat] at ho
  cases ho
  exact ⟨f, rfl⟩

/-- An entry of the folder is one still when files are gone, be it its own. -/
theorem IsEntryIn.without (h : IsEntryIn t folder place e) (places : List Place) :
    IsEntryIn (t.without places) folder place e :=
  ⟨h.path, h.isStep, fun o ho => h.free o (Tree.at?_of_at?_without ho)⟩

/-- Has a tree lost the files of some entries, and nothing else? -/
def TakesAway (place : Place) (removed : List Entry) (t t' : Tree) : Prop :=
  ∃ places, t.AllFiles places ∧ (∀ q ∈ places, ∃ e ∈ removed, q = placeIn place e) ∧
    t' = t.without places

namespace TakesAway

/-- Nothing was taken away. -/
theorem refl (place : Place) (removed : List Entry) (t : Tree) : TakesAway place removed t t :=
  ⟨[], by simp [Tree.AllFiles], by simp, (Tree.without_nil t).symm⟩

/-- What is taken away in two goes is in one of the two lists. -/
theorem trans (h : TakesAway place removed t t') (h' : TakesAway place more t' t'') :
    TakesAway place (removed ++ more) t t'' := by
  obtain ⟨places, hfiles, hplaces, rfl⟩ := h
  obtain ⟨places', hfiles', hplaces', rfl⟩ := h'
  refine ⟨places ++ places', fun q hq => ?_, fun q hq => ?_, Tree.without_append _ _ _⟩
  · rcases List.mem_append.1 hq with hq | hq
    · exact hfiles q hq
    · obtain ⟨f, hf⟩ := hfiles' q hq
      exact ⟨f, Tree.at?_of_at?_without hf⟩
  · rcases List.mem_append.1 hq with hq | hq
    · obtain ⟨e, he, heq⟩ := hplaces q hq
      exact ⟨e, List.mem_append_left _ he, heq⟩
    · obtain ⟨e, he, heq⟩ := hplaces' q hq
      exact ⟨e, List.mem_append_right _ he, heq⟩

/-- The folder is there still. -/
theorem leads (hl : t.Leads folder place mode) (h : TakesAway place removed t t') :
    t'.Leads folder place mode := by
  obtain ⟨places, hfiles, -, rfl⟩ := h
  exact hl.without hfiles

/-- An entry of the folder is one still. -/
theorem isEntryIn (h : TakesAway place removed t t') (he : IsEntryIn t folder place e) :
    IsEntryIn t' folder place e := by
  obtain ⟨places, -, -, rfl⟩ := h
  exact he.without places

/-- What is not in the list is spared. -/
theorem spares {guarded : Place → Prop} (hs : t.Sound) (h : TakesAway place removed t t')
    (hguarded : ∀ e ∈ removed, ¬ guarded (placeIn place e)) : Tree.Spares guarded t t' := by
  obtain ⟨places, hfiles, hplaces, rfl⟩ := h
  refine Tree.spares_without hs hfiles fun q hq => ?_
  obtain ⟨e, he, rfl⟩ := hplaces q hq
  exact hguarded e he

end TakesAway

/-- Removing one file takes away no other, be it that the removal fails. -/
theorem takesAway_removeEntry (hl : t.Leads folder place mode) (he : IsEntryIn t folder place e) :
    TakesAway place [e] t (removeEntry e t).2 := by
  rw [removeEntry, remove, he.path]
  cases hremove : t.remove (folder.join e.fileName) with
  | ok t' =>
    obtain ⟨⟨f, hf⟩, rfl⟩ := hl.remove_eq_ok he.isStep he.free hremove
    refine ⟨[placeIn place e], fun q hq => ?_, fun q hq => ?_, rfl⟩
    · rw [List.mem_singleton.1 hq]
      exact ⟨f, Tree.fileAt?_eq_some_iff.1 hf⟩
    · exact ⟨e, List.mem_singleton_self e, List.mem_singleton.1 hq⟩
  | error fault =>
    have hsame : TakesAway place [e] t t := TakesAway.refl place [e] t
    split
    · rename_i hok
      split at hok
      · rename_i heq
        cases heq
      · cases hok
      · cases hok
    · rename_i hok
      split at hok
      · rename_i heq
        cases heq
      · cases hok
        exact hsame
      · cases hok
    · exact hsame

/-- **Only files of the list are gone** after removals, of which any may have failed. -/
theorem takesAway_removeEntries (hl : t.Leads folder place mode)
    (h : ∀ e ∈ removed, IsEntryIn t folder place e) :
    TakesAway place removed t (removeEntries removed t).2 := by
  induction removed generalizing t with
  | nil => exact TakesAway.refl place [] t
  | cons e rest ih =>
    have hfirst := takesAway_removeEntry hl (h e List.mem_cons_self)
    have hrest := ih (hfirst.leads hl) fun e' he' =>
      hfirst.isEntryIn (h e' (List.mem_cons_of_mem _ he'))
    rw [removeEntries]
    exact hfirst.trans hrest

end Removing

end Store

namespace Spool

section Sweeping

variable {t : Tree} {folder : Path} {place : Place} {mode : Nat} {policy : SweepPolicy}

/-- Sweeping groups takes away nothing but what the policy removes of them. -/
theorem takesAway_sweepGroups (hl : t.Leads folder place mode) {gs : List JobFiles}
    (h : ∀ s ∈ gs, ∀ e ∈ policy.removed s, Store.IsEntryIn t folder place e)
    (report : SweepReport) :
    Store.TakesAway place (gs.flatMap policy.removed) t (sweepGroups policy report gs t).2 := by
  rw [files_sweepGroups]
  refine Store.takesAway_removeEntries hl fun e he => ?_
  obtain ⟨s, hs, he⟩ := List.mem_flatMap.1 he
  exact h s hs e he

end Sweeping

variable {c : Config} {p : Principal} {guarded : Place → Prop}

/-- The tree after a call that leaves it alone when it fails. -/
def treeAfter {α : Type} (t : Tree) : Except Error (α × Tree) → Tree
  | .ok (_, t') => t'
  | .error _ => t

/-- Is a file with a given name removed when a stem is deleted? -/
def IsDeletedWith (c : Config) (stem name : String) : Prop :=
  if stem = c.hitList.fileName then c.hitList.owns name = true
  else (FileName.split name).1 = stem ∧ c.hitList.owns name = false

/-- Which files are deleted with a stem can be told by their names. -/
theorem isDeletedWith_ofName {stem name : String} {path : Path} {modified : Option Instant} :
    isDeletedWith c stem (.ofName name path modified) = true ↔ IsDeletedWith c stem name := by
  rw [isDeletedWith, IsDeletedWith, Entry.fileName_ofName]
  by_cases h : stem = c.hitList.fileName
  · simp [h]
  · simp [h, Entry.ofName]

/-- **A deletion leaves alone what does not belong to its stem.** -/
theorem spares_deleteJob {t : Tree} (hs : t.Sound) {stem : String}
    (hguarded : ∀ place mode name, t.Leads (c.store.folder p) place mode →
      (∃ f, t.fileAt? place name = some f) → IsDeletedWith c stem name →
        ¬ guarded (place ++ [.text name])) :
    Tree.Spares guarded t (treeAfter t (deleteJob c p stem t)) := by
  have hsame := Tree.Spares.refl guarded hs
  unfold deleteJob
  split
  · exact hsame
  · dsimp only
    split
    · exact hsame
    · rename_i hfolder
      rw [Bool.not_eq_true, Bool.not_eq_false'] at hfolder
      obtain ⟨place, mode, hl⟩ := Tree.exists_leads_of_isFolder hs hfolder
      split
      · exact hsame
      · rename_i entries hentries
        have hentry : ∀ e ∈ entries.filter (isDeletedWith c stem),
            Store.IsEntryIn t (c.store.folder p) place e := fun e he =>
          Store.isEntryIn_of_mem_list hl hentries (List.mem_of_mem_filter he)
        refine (Store.takesAway_removeEntries hl hentry).spares hs fun e he => ?_
        obtain ⟨hmem, hdeleted⟩ := List.mem_filter.1 he
        obtain ⟨name, f, hf, rfl⟩ := (Store.mem_list_iff hl hentries).1 hmem
        rw [Store.placeIn, Entry.fileName_ofName]
        exact hguarded place mode name hl ⟨f, (Tree.shownFile?_eq_some_iff.1 hf).2⟩
          (isDeletedWith_ofName.1 hdeleted)

/-- **So does a deletion of several stems.** -/
theorem spares_deleteJobs {t : Tree} (hs : t.Sound) {stems : List String}
    (hguarded : ∀ t', Tree.Spares guarded t t' → ∀ stem ∈ stems, ∀ place mode name,
      t'.Leads (c.store.folder p) place mode → (∃ f, t'.fileAt? place name = some f) →
        IsDeletedWith c stem name → ¬ guarded (place ++ [.text name])) :
    Tree.Spares guarded t (deleteJobs c p stems t).2 := by
  induction stems generalizing t with
  | nil => exact Tree.Spares.refl guarded hs
  | cons stem stems ih =>
    have hfirst := spares_deleteJob hs
      (hguarded t (Tree.Spares.refl guarded hs) stem List.mem_cons_self)
    have hrest := ih hfirst.sound fun t' ht' stem' hmem =>
      hguarded t' (hfirst.trans ht') stem' (List.mem_cons_of_mem _ hmem)
    have hboth := hfirst.trans hrest
    rw [deleteJobs]
    cases hdelete : deleteJob c p stem t with
    | ok answer =>
      rw [hdelete] at hboth
      exact hboth
    | error e =>
      rw [hdelete] at hboth
      exact hboth

section Reconciling

variable {σ : Type} [Scheduler σ] {now : Instant} {s : Spool σ}

/-- **A sweep leaves alone what it does not mean to remove.** -/
theorem spares_reconcile (hs : s.files.Sound)
    (hguarded : ∀ place mode name, s.files.Leads (c.store.folder p) place mode →
      IsSwept c now (pendingAnswer now s) s.files (c.store.folder p) place name →
        ¬ guarded (place ++ [.text name])) :
    Tree.Spares guarded s.files (reconcile c now p s).2.files := by
  have hsame := Tree.Spares.refl guarded hs
  unfold reconcile
  dsimp only
  split
  · exact hsame
  · rename_i hfolder
    rw [Bool.not_eq_true, Bool.not_eq_false'] at hfolder
    obtain ⟨place, mode, hl⟩ := Tree.exists_leads_of_isFolder hs hfolder
    split
    · exact hsame
    · rename_i entries hentries
      -- Every removal is of an entry of the folder that is to go.
      have hmem : ∀ gs ∈ JobFiles.groups (jobEntries c entries),
          ∀ e ∈ (policyFor c now s).removed gs, e ∈ sweptFiles c (policyFor c now s) entries :=
        fun gs hgs e he => List.mem_flatMap.2 ⟨gs, hgs, he⟩
      have hentry : ∀ gs ∈ JobFiles.groups (jobEntries c entries),
          ∀ e ∈ (policyFor c now s).removed gs,
            Store.IsEntryIn s.files (c.store.folder p) place e := fun gs hgs e he =>
        Store.isEntryIn_of_mem_list hl hentries
          (mem_jobEntries.1 (mem_sweptFiles.1 (hmem gs hgs e he)).1).1
      have hsweep := takesAway_sweepGroups hl hentry
        { kept := (hitListEntries c entries).map (·.fileName) }
      refine hsweep.spares hs fun e he => ?_
      exact hguarded place mode e.fileName hl
        ((mem_sweptFiles_iff hl hentries).1 (List.mem_map_of_mem he))

/-- A sweep only asks the scheduler. -/
theorem scheduler_reconcile (c : Config) (now : Instant) (p : Principal) (s : Spool σ) :
    (reconcile c now p s).2.scheduler = s.scheduler ∨
      (reconcile c now p s).2.scheduler = (Scheduler.pending s.files now s.scheduler).2 := by
  unfold reconcile
  dsimp only
  split
  · exact Or.inl rfl
  · split
    · exact Or.inr rfl
    · exact Or.inr rfl

end Reconciling

end Spool
end JobSpool
