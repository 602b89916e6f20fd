/-
# Trees and groups in another order

Two trees may hold the same objects at the same places and still enumerate them in different
orders (`Tree.SameObjects`).  A walk asks only what stands at a place, so a path leads to the same
in both trees (`SameObjects.locate`), and their listings of a folder hold the same entries, one in
the order of the other (`Store.list_alike`).  Every order of the entries is one that some tree
lists them in (`Store.exists_list_eq_of_perm`).

A group keeps its files in the order of the listing, and a file that is some artifact is found as
the first one.  But a stem and a recognized artifact name one file, so groups with the same files
(`JobFiles.SameFiles`) have the same artifacts (`SameFiles.get?`), and the summaries that are made
of them are the same (`Spool.summaries_congr`).
-/

import JobSpool.Proofs.Summaries
import JobSpool.Sweep
import Mathlib.Data.List.Forall2

namespace JobSpool

open Files (Tree Place File Object)

/-- Do two answers agree: both are the same error, or values that are alike? -/
inductive Alike {ε α : Type} (r : α → α → Prop) : Except ε α → Except ε α → Prop
  | error (e : ε) : Alike r (.error e) (.error e)
  | ok {a b : α} (h : r a b) : Alike r (.ok a) (.ok b)

/-- Answers that are alike are the same error, or both of them results. -/
theorem Alike.eq_ok_or_error {ε α : Type} {r : α → α → Prop} {x y : Except ε α} (h : Alike r x y) :
    (∃ e, x = .error e ∧ y = .error e) ∨ ∃ a b, x = .ok a ∧ y = .ok b ∧ r a b := by
  cases h with
  | error e => exact Or.inl ⟨e, rfl, rfl⟩
  | ok h => exact Or.inr ⟨_, _, rfl, rfl, h⟩

namespace Files.Tree

/-- Does the same stand everywhere in two sound trees, in whatever order they enumerate it? -/
structure SameObjects (t t' : Tree) : Prop where
  home : t'.home = t.home
  at? : ∀ place, t'.at? place = t.at? place
  sound : t.Sound
  sound' : t'.Sound

/-- One round of a walk depends only on what stands at each place, -/
theorem walkWith_congr {t t' : Tree} (hat : ∀ place, t'.at? place = t.at? place)
    (jump : Place → Path → List Path.Step → Except OsError Spot) (aim : Aim) (slash : Bool)
    (here : Place) (steps : List Path.Step) :
    walkWith jump t' aim slash here steps = walkWith jump t aim slash here steps := by
  have hsearch : ∀ place, t'.maySearch place = t.maySearch place := fun place => by
    rw [maySearch, hat, maySearch]
  induction steps generalizing here with
  | nil => simp only [walkWith, hat]
  | cons step steps ih => cases step <;> simp only [walkWith, hat, hsearch, ih]

/-- and so does the walk. -/
theorem walk_congr {t t' : Tree} (hat : ∀ place, t'.at? place = t.at? place) (aim : Aim)
    (links : Nat) (slash : Bool) (here : Place) (steps : List Path.Step) :
    t'.walk aim links slash here steps = t.walk aim links slash here steps := by
  induction links generalizing slash here steps with
  | zero => rw [walk, walk, walkWith_congr hat]
  | succ links ih =>
    rw [walk, walk, walkWith_congr hat]
    simp only [ih]

/-- The order of entries with distinct places does not show in what stands at a place. -/
theorem at?_congr_of_perm {t t' : Tree} (hs : (t.entries.map (·.1)).Nodup)
    (h : t.entries.Perm t'.entries) (place : Place) : t'.at? place = t.at? place := by
  by_cases hnil : place = []
  · simp [Tree.at?, hnil]
  · have hs' : (t'.entries.map (·.1)).Nodup := (h.map _).nodup_iff.1 hs
    refine Option.ext fun o => ?_
    rw [← mem_entries_iff_of_nodup hs' hnil, ← mem_entries_iff_of_nodup hs hnil, h.mem_iff]

/-- Folders that hold the same enumerate it in some order. -/
theorem children_perm_of_same {t t' : Tree} (hs : t.Sound) (hs' : t'.Sound) {folder : Place}
    (hsame : ∀ name, t'.at? (folder ++ [name]) = t.at? (folder ++ [name])) :
    (t.children folder).Perm (t'.children folder) := by
  rw [List.perm_ext_iff_of_nodup (nodup_children hs folder).of_map
    (nodup_children hs' folder).of_map]
  rintro ⟨name, o⟩
  rw [hs.mem_children_iff, hs'.mem_children_iff, hsame]

namespace SameObjects

variable {t t' : Tree}

/-- A sound tree holds the objects that it holds. -/
theorem refl (hs : t.Sound) : t.SameObjects t :=
  ⟨rfl, fun _ => rfl, hs, hs⟩

/-- Holding the same objects goes both ways. -/
theorem symm (h : t.SameObjects t') : t'.SameObjects t :=
  ⟨h.home.symm, fun place => (h.at? place).symm, h.sound', h.sound⟩

/-- **A tree with its entries in another order** has the same objects. -/
theorem of_perm (hs : t.Sound) {entries : List (Place × Object)} (h : t.entries.Perm entries) :
    t.SameObjects { t with entries } := by
  have hat : ∀ place, Tree.at? { t with entries } place = t.at? place :=
    at?_congr_of_perm hs.distinct h
  refine ⟨rfl, hat, hs, ?_, ?_, ?_, ?_⟩
  · exact (h.map _).nodup_iff.1 hs.distinct
  · exact fun e he => hs.legal e (h.mem_iff.2 he)
  · intro place o ho
    rw [hat] at ho
    obtain ⟨mode, hmode⟩ := hs.housed place o ho
    exact ⟨mode, (hat _).trans hmode⟩
  · obtain ⟨mode, hmode⟩ := hs.home
    exact ⟨mode, (hat _).trans hmode⟩

/-- **A path leads to the same in both trees.** -/
theorem locate (h : t.SameObjects t') (aim : Aim) (p : Path) :
    t'.locate aim p = t.locate aim p := by
  rw [Tree.locate, Tree.locate, start, start, h.home]
  simp only [walk_congr h.at?]

/-- A path leads to the same object, -/
theorem find (h : t.SameObjects t') (p : Path) : t'.find p = t.find p := by
  rw [Tree.find, Tree.find, h.locate]

/-- a folder is one in both trees, -/
theorem isFolder (h : t.SameObjects t') (p : Path) : t'.isFolder p = t.isFolder p := by
  rw [Tree.isFolder, Tree.isFolder, h.find]

/-- and it can be searched in both. -/
theorem isSearchable (h : t.SameObjects t') (p : Path) :
    t'.isSearchable p = t.isSearchable p := by
  rw [Tree.isSearchable, Tree.isSearchable, h.find]

/-- The path of a folder leads to it in both trees. -/
theorem leads (h : t.SameObjects t') {folder : Path} {place : Place} {mode : Nat}
    (hl : t.Leads folder place mode) : t'.Leads folder place mode :=
  ⟨h.sound', (h.find folder).trans hl.find⟩

/-- The files of a folder are the same. -/
theorem fileAt? (h : t.SameObjects t') (place : Place) (name : String) :
    t'.fileAt? place name = t.fileAt? place name := by
  rw [Tree.fileAt?, h.at?, Tree.fileAt?]

/-- **The objects in a folder are the same,** in some order. -/
theorem children_perm (h : t.SameObjects t') (folder : Place) :
    (t.children folder).Perm (t'.children folder) :=
  children_perm_of_same h.sound h.sound' fun name => h.at? (folder ++ [name])

/-- Trees with the same objects hold the same ones when the same files are taken away. -/
theorem without (h : t.SameObjects t') {places places' : List Place}
    (hplaces : places.Perm places') (hfiles : t.AllFiles places) :
    (t.without places).SameObjects (t'.without places') := by
  have hfiles' : t'.AllFiles places' := fun place hplace => by
    obtain ⟨f, hf⟩ := hfiles place (hplaces.mem_iff.2 hplace)
    exact ⟨f, (h.at? place).trans hf⟩
  refine ⟨h.home, fun place => ?_, h.sound.without hfiles, h.sound'.without hfiles'⟩
  by_cases hnil : place = []
  · simp [hnil, Tree.at?]
  · rw [at?_without hnil, at?_without hnil, h.at?]
    simp only [hplaces.mem_iff]

end SameObjects

end Files.Tree

namespace Store

variable {t t' : Tree} {folder : Path} {place : Place} {mode : Nat} {entries : List Entry}

/-- **Listings of one folder have the same entries,** in some order. -/
theorem list_alike (h : t.SameObjects t') (folder : Path) :
    Alike List.Perm (list folder t) (list folder t') := by
  rw [list, list, Tree.visit, Tree.visit, h.find, h.isSearchable]
  cases t.find folder with
  | error fault => exact .error _
  | ok found =>
    obtain ⟨place, o⟩ := found
    cases o with
    | file f => exact .ok (List.Perm.refl _)
    | link target => exact .ok (List.Perm.refl _)
    | folder mode =>
      dsimp only
      cases (Object.folder mode).mayRead with
      | false => exact .error _
      | true => exact .ok ((h.children_perm place).filterMap _)

/-- So have listings of a folder that holds the same in two trees. -/
theorem list_alike_of_same (h : t.Leads folder place mode) (h' : t'.Leads folder place mode)
    (hsame : ∀ name, t'.at? (place ++ [name]) = t.at? (place ++ [name])) :
    Alike List.Perm (list folder t) (list folder t') := by
  rw [list, list, Tree.visit, Tree.visit, h.find, h'.find, h.isSearchable, h'.isSearchable]
  dsimp only
  cases (Object.folder mode).mayRead with
  | false => exact .error _
  | true => exact .ok ((Tree.children_perm_of_same h.sound h'.sound hsame).filterMap _)

/-- What a list is filtered to comes in every order from some order of the list. -/
theorem exists_filterMap_eq_of_perm {α β : Type} (f : α → Option β) {items : List α}
    {found : List β} (h : found.Perm (items.filterMap f)) :
    ∃ items', items.Perm items' ∧ items'.filterMap f = found := by
  induction items generalizing found with
  | nil => exact ⟨[], .nil, h.eq_nil.symm⟩
  | cons item items ih =>
    cases hitem : f item with
    | none =>
      rw [List.filterMap_cons_none hitem] at h
      obtain ⟨items', hperm, hfound⟩ := ih h
      exact ⟨item :: items', hperm.cons item, by rw [List.filterMap_cons_none hitem, hfound]⟩
    | some b =>
      rw [List.filterMap_cons_some hitem] at h
      obtain ⟨before, after, rfl⟩ := List.append_of_mem (h.mem_iff.2 List.mem_cons_self)
      have hrest : (before ++ after).Perm (items.filterMap f) :=
        (List.perm_middle.symm.trans h).cons_inv
      obtain ⟨items', hperm, hfound⟩ := ih hrest
      obtain ⟨first, last, rfl, rfl, rfl⟩ := List.filterMap_eq_append_iff.1 hfound
      refine ⟨first ++ item :: last, (hperm.cons item).trans List.perm_middle.symm, ?_⟩
      rw [List.filterMap_append, List.filterMap_cons_some hitem]

/-- **Every order of the entries of a listing is one that some tree lists them in.** -/
theorem exists_list_eq_of_perm (hs : t.Sound) (hentries : list folder t = .ok entries)
    {entries' : List Entry} (h : entries'.Perm entries) :
    ∃ t', t.SameObjects t' ∧ list folder t' = .ok entries' := by
  rw [list, Tree.visit] at hentries
  cases hfind : t.find folder with
  | error fault =>
    rw [hfind] at hentries
    cases hentries
  | ok found =>
    obtain ⟨place, o⟩ := found
    rw [hfind] at hentries
    by_cases hfolder : ∃ mode, o = .folder mode ∧ (Object.folder mode).mayRead = true
    · obtain ⟨mode, rfl, hread⟩ := hfolder
      simp only [hread, if_true, Except.ok.injEq] at hentries
      -- The entries come from the children, so these are put into the order wanted.
      rw [← hentries, Tree.children, List.filterMap_filterMap] at h
      obtain ⟨objects, hobjects, hfound⟩ := exists_filterMap_eq_of_perm _ h
      have hsame := Tree.SameObjects.of_perm hs hobjects
      refine ⟨_, hsame, ?_⟩
      rw [list, Tree.visit, hsame.find, hfind, hsame.isSearchable]
      simp only [hread, if_true]
      rw [Tree.children, List.filterMap_filterMap, hfound]
    · have hnil : entries = [] := by
        cases o with
        | folder mode =>
          have hread : (Object.folder mode).mayRead = false := by
            rw [← Bool.not_eq_true]
            exact fun hread => hfolder ⟨mode, rfl, hread⟩
          simp [hread] at hentries
        | file f => simpa using hentries.symm
        | link target => simpa using hentries.symm
      subst hnil
      refine ⟨t, .refl hs, ?_⟩
      rw [h.eq_nil, list, Tree.visit, hfind]
      exact hentries

end Store

/-! ### Groups in another order -/

namespace JobFiles

/-- Are groups of one stem made of the same files, in some order? -/
structure SameFiles (s s' : JobFiles) : Prop where
  stem : s'.stem = s.stem
  perm : s.entries.Perm s'.entries
  isGroup : s.IsGroup

variable {s s' : JobFiles} {entries entries' : List Entry}

/-- The state of a job follows from its artifacts. -/
theorem state?_congr (h : ∀ a, a ≠ .unrecognized → s'.has a = s.has a) :
    s'.state? = s.state? := by
  have hresults : ∀ a ∈ Artifact.results, s'.has a = s.has a := fun a ha =>
    h a (by rintro rfl; simp [Artifact.results] at ha)
  have hall : s'.hasAllResults = s.hasAllResults := by
    rw [Bool.eq_iff_iff, hasAllResults, List.all_eq_true, hasAllResults, List.all_eq_true]
    exact forall₂_congr fun a ha => by rw [hresults a ha]
  have hany : s'.hasAnyResult = s.hasAnyResult := by
    rw [Bool.eq_iff_iff, hasAnyResult, List.any_eq_true, hasAnyResult, List.any_eq_true]
    exact exists_congr fun a => and_congr_right fun ha => by rw [hresults a ha]
  rw [state?, state?, h .progress (by decide), h .input (by decide), hall, hany]

namespace SameFiles

/-- The files of the one are a group if those of the other are. -/
theorem isGroup' (h : s.SameFiles s') : s'.IsGroup where
  stem e he := (h.isGroup.stem e (h.perm.mem_iff.2 he)).trans h.stem.symm
  distinct := (h.perm.map _).nodup_iff.1 h.isGroup.distinct

/-- **Groups with the same files have the same artifacts.** -/
theorem get? (h : s.SameFiles s') {a : Artifact} (ha : a ≠ .unrecognized) :
    s'.get? a = s.get? a := by
  refine Option.ext fun e => ?_
  rw [h.isGroup'.get?_eq_some_iff ha, h.isGroup.get?_eq_some_iff ha, h.perm.mem_iff]

/-- The same artifacts are there. -/
theorem has (h : s.SameFiles s') {a : Artifact} (ha : a ≠ .unrecognized) :
    s'.has a = s.has a := by
  rw [JobFiles.has, h.get? ha, JobFiles.has]

/-- The job is in the same state. -/
theorem state? (h : s.SameFiles s') : s'.state? = s.state? :=
  state?_congr fun _ => h.has

/-- The progress is stale in both or in none. -/
theorem progressIsStale (h : s.SameFiles s') (now : Instant) (limit : Nat) :
    s'.progressIsStale now limit = s.progressIsStale now limit := by
  rw [JobFiles.progressIsStale, h.get? (by decide), JobFiles.progressIsStale]

/-- What is left of the files by a test is the same. -/
theorem filter (h : s.SameFiles s') (keep : Entry → Bool) :
    SameFiles { s with entries := s.entries.filter keep }
      { s' with entries := s'.entries.filter keep } :=
  ⟨h.stem, h.perm.filter keep, h.isGroup.filter keep⟩

/-- What is left of the files without some names is the same. -/
theorem without (h : s.SameFiles s') {names names' : List String} (hnames : names.Perm names') :
    (s.without names).SameFiles (s'.without names') := by
  have hcontains : ∀ name, names'.contains name = names.contains name := fun name => by
    rw [Bool.eq_iff_iff, List.contains_iff_mem, List.contains_iff_mem, hnames.mem_iff]
  simp only [JobFiles.without, hcontains]
  exact h.filter _

/-- The verdict on what is left is the same. -/
theorem stateAfterSweep (h : s.SameFiles s') {names names' : List String}
    (hnames : names.Perm names') : s'.stateAfterSweep names' = s.stateAfterSweep names := by
  rw [JobFiles.stateAfterSweep, (h.without hnames).state?, JobFiles.stateAfterSweep]

/-- The summary is the same. -/
theorem ofFiles (h : s.SameFiles s') (p : Principal) (state : JobState)
    (progress : Option Progress) :
    JobSummary.ofFiles p s' state progress = JobSummary.ofFiles p s state progress := by
  rw [JobSummary.ofFiles, JobSummary.ofFiles, h.stem]
  congr 1
  refine List.filterMap_congr fun a ha => ?_
  rw [h.get? (by rintro rfl; simp [Artifact.results] at ha)]

end SameFiles

/-- The stems of a listing do not depend on its order, -/
theorem stems_congr (h : entries.Perm entries') : stems entries' = stems entries := by
  refine Text.sortNames_congr ?_
  rw [List.perm_ext_iff_of_nodup (nodup_eraseDups _) (nodup_eraseDups _)]
  intro stem
  rw [List.mem_eraseDups, List.mem_eraseDups, (h.map _).mem_iff]

/-- **and its groups do not either,** the order inside them aside. -/
theorem sameFiles_group (h : entries.Perm entries') (hd : (entries.map (·.fileName)).Nodup)
    (stem : String) : (group entries stem).SameFiles (group entries' stem) :=
  ⟨rfl, h.filter _, isGroup_group hd stem⟩

/-- A listing in another order has the same groups, with the same files in each. -/
theorem forall₂_groups (h : entries.Perm entries') (hd : (entries.map (·.fileName)).Nodup) :
    List.Forall₂ SameFiles (groups entries) (groups entries') := by
  rw [groups_eq, groups_eq, stems_congr h, List.forall₂_map_left_iff, List.forall₂_map_right_iff,
    List.forall₂_same]
  exact fun stem _ => sameFiles_group h hd stem

end JobFiles

namespace Spool

variable {c : Config} {p : Principal} {t t' : Tree} {entries entries' : List Entry}

/-- The summary of a job depends on its files, and on what its progress file tells. -/
theorem summary?_congr {s s' : JobFiles} (h : s.SameFiles s')
    (hread : ∀ e ∈ s.entries, ProgressFile.read? t' e.path = ProgressFile.read? t e.path) :
    summary? p t' s' = summary? p t s := by
  have hprogress : ∀ state, shownProgress t' s' state = shownProgress t s state := by
    intro state
    cases state with
    | running =>
      rw [shownProgress, shownProgress, h.get? (by decide)]
      refine Option.bind_congr fun e he => ?_
      exact hread e (List.mem_of_find?_eq_some he)
    | _ => rfl
  simp only [summary?, h.state?, h.ofFiles, hprogress]

/-- **The summaries of jobs follow from their files,** in whatever order they are listed and
whatever else is listed with them. -/
theorem summaries_congr (h : (jobEntries c entries).Perm (jobEntries c entries'))
    (hd : ((jobEntries c entries).map (·.fileName)).Nodup)
    (hread : ∀ e ∈ jobEntries c entries,
      ProgressFile.read? t' e.path = ProgressFile.read? t e.path) :
    summaries c p t' entries' = summaries c p t entries := by
  rw [summaries, summaries, JobFiles.groups_eq, JobFiles.groups_eq, JobFiles.stems_congr h,
    List.filterMap_map, List.filterMap_map]
  refine List.filterMap_congr fun stem _ => ?_
  rw [Function.comp_apply, Function.comp_apply]
  refine summary?_congr (JobFiles.sameFiles_group h hd stem) fun e he => ?_
  exact hread e (JobFiles.mem_group.1 he).1

/-- The summary of the hit list depends on which files are there. -/
theorem hitListSummary?_congr (h : entries.Perm entries') :
    hitListSummary? c p entries' = hitListSummary? c p entries := by
  have hany : ∀ name, (entries'.any fun e => e.fileName == name)
      = entries.any fun e => e.fileName == name := fun name => h.any_eq.symm
  simp only [hitListSummary?, hany]

end Spool
end JobSpool
