/-
# What a listing holds, and what removals leave of it

A listing of a folder has an entry for every file that is shown (`mem_list_iff`), under a name
of its own (`nodup_list`).  Whether a file is shown depends on its name and on nothing else
(`Tree.shownFile?`), but when it was written is known only in a folder that may be searched
(`Tree.knownTime?`).

The store removes files of a listing one by one.  When each of them could be removed alone,
all of them are removed together (`removeEntries_eq`), since no removal changes what the next
one asks for.  The listing afterwards is the old one less their entries (`list_without`).
-/

import JobSpool.Proofs.Folders

namespace JobSpool

namespace Files.Tree

/-- The file that a listing shows under a name. -/
def shownFile? (t : Tree) (folder : Place) (name : String) : Option File :=
  if name.toList.head? = some '.' then none else t.fileAt? folder name

/-- When a file right in a folder was last written, if a listing can tell. -/
def knownTime? (t : Tree) (folder : Path) (name : String) (f : File) : Option Instant :=
  if t.isSearchable folder && (refusal? (folder.join name)).isNone then some f.modified else none

/-- A file is shown if its name is not hidden. -/
theorem shownFile?_eq_some_iff {t : Tree} {folder : Place} {name : String} {f : File} :
    t.shownFile? folder name = some f ↔
      name.toList.head? ≠ some '.' ∧ t.fileAt? folder name = some f := by
  unfold shownFile?
  split <;> simp_all

/-- A folder has lost a file exactly if its place was taken away. -/
theorem fileAt?_without {t : Tree} {folder : Place} {places : List Place} {name : String} :
    (t.without places).fileAt? folder name
      = if folder ++ [.text name] ∈ places then none else t.fileAt? folder name := by
  rw [fileAt?, at?_without (by simp), fileAt?]
  by_cases hmem : folder ++ [.text name] ∈ places <;> simp [hmem]

/-- The children of a folder have different names. -/
theorem nodup_children {t : Tree} (hs : t.Sound) (folder : Place) :
    ((t.children folder).map (·.1)).Nodup := by
  have h : (t.children folder).map (·.1) = (t.entries.map (·.1)).filterMap (childOf? folder) := by
    rw [children, List.map_filterMap, List.filterMap_map]
    refine List.filterMap_congr fun e _ => ?_
    simp [Function.comp_def]
  rw [h]
  refine hs.distinct.filterMap fun place place' name hname hname' => ?_
  rw [Option.mem_def, childOf?_eq_some_iff] at hname hname'
  rw [hname, hname']

/-- What is left of a folder are its children at places that were not taken away. -/
theorem children_without (t : Tree) (folder : Place) (places : List Place) :
    (t.without places).children folder
      = (t.children folder).filter fun child => !places.contains (folder ++ [child.1]) := by
  rw [children, children, without, List.filterMap_filter, List.filter_filterMap]
  refine List.filterMap_congr fun e _ => ?_
  cases hc : childOf? folder e.1 with
  | none => simp
  | some name =>
    rw [childOf?_eq_some_iff] at hc
    simp [← hc, Option.filter]

end Files.Tree

namespace Store

open Files (Tree Place File Object)

variable {t : Tree} {folder : Path} {place : Place} {mode : Nat} {entries : List Entry}

/-- A folder is listed if it may be read, and then by its children. -/
theorem list_eq_ok_iff (h : t.Leads folder place mode) :
    list folder t = .ok entries ↔ (Object.folder mode).mayRead = true ∧
      entries = (t.children place).filterMap (entryOf? folder (t.isSearchable folder)) := by
  rw [list, Tree.visit, h.find]
  dsimp only
  cases (Object.folder mode).mayRead with
  | false => simp
  | true => simpa using eq_comm

/-- A folder that may be read is listed. -/
theorem exists_list_eq_ok (h : t.Leads folder place mode)
    (hread : (Object.folder mode).mayRead = true) : ∃ entries, list folder t = .ok entries :=
  ⟨_, (list_eq_ok_iff h).2 ⟨hread, rfl⟩⟩

/-- The entry for a child tells that it is a file, and not hidden. -/
theorem entryOf?_eq_some_iff {searched : Bool} {name : Files.Name} {o : Object} {e : Entry} :
    entryOf? folder searched (name, o) = some e ↔
      ∃ s f, name = .text s ∧ o = .file f ∧ s.toList.head? ≠ some '.' ∧
        e = .ofName s (folder.join s)
          (if searched && (Tree.refusal? (folder.join s)).isNone then some f.modified
            else none) := by
  cases name with
  | raw bytes => simp [entryOf?]
  | text s =>
    cases o with
    | folder mode => simp [entryOf?]
    | link target => simp [entryOf?]
    | file f =>
      by_cases hs : s.toList.head? = some '.'
      · simp [entryOf?, hs]
      · simp only [entryOf?, beq_iff_eq, hs, if_false, Option.some.injEq]
        constructor
        · rintro rfl
          exact ⟨s, f, rfl, rfl, hs, rfl⟩
        · rintro ⟨s', f', hs', hf', -, rfl⟩
          cases hs'
          cases hf'
          rfl

/-- **A listing holds an entry for every file that is shown,** and for nothing else. -/
theorem mem_list_iff (h : t.Leads folder place mode) (hl : list folder t = .ok entries)
    {e : Entry} :
    e ∈ entries ↔ ∃ name f, t.shownFile? place name = some f ∧
      e = .ofName name (folder.join name) (t.knownTime? folder name f) := by
  rw [((list_eq_ok_iff h).1 hl).2, List.mem_filterMap]
  constructor
  · rintro ⟨⟨name, o⟩, hmem, he⟩
    rw [entryOf?_eq_some_iff] at he
    obtain ⟨s, f, rfl, rfl, hs, rfl⟩ := he
    rw [h.sound.mem_children_iff, ← Tree.fileAt?_eq_some_iff] at hmem
    exact ⟨s, f, Tree.shownFile?_eq_some_iff.2 ⟨hs, hmem⟩, rfl⟩
  · rintro ⟨name, f, hf, rfl⟩
    rw [Tree.shownFile?_eq_some_iff, Tree.fileAt?_eq_some_iff, ← h.sound.mem_children_iff] at hf
    exact ⟨_, hf.2, entryOf?_eq_some_iff.2 ⟨name, f, rfl, rfl, hf.1, rfl⟩⟩

/-- **No two entries of a listing have one name.** -/
theorem nodup_list (h : t.Leads folder place mode) (hl : list folder t = .ok entries) :
    (entries.map (·.fileName)).Nodup := by
  rw [((list_eq_ok_iff h).1 hl).2, List.Nodup, List.pairwise_map]
  have hchildren := Tree.nodup_children h.sound place
  rw [List.Nodup, List.pairwise_map] at hchildren
  refine hchildren.filterMap _ fun child child' hne e he e' he' heq => ?_
  obtain ⟨s, f, hs, -, -, rfl⟩ := entryOf?_eq_some_iff.1 he
  obtain ⟨s', f', hs', -, -, rfl⟩ := entryOf?_eq_some_iff.1 he'
  rw [Entry.fileName_ofName, Entry.fileName_ofName] at heq
  exact hne (by rw [hs, hs', heq])

/-- The place of the file that an entry is for. -/
def placeIn (place : Place) (e : Entry) : Place :=
  place ++ [.text e.fileName]

/-- The places of files are those of their names. -/
theorem mem_map_placeIn_iff {es : List Entry} {other : Place} : other ∈ es.map (placeIn place) ↔
    ∃ name ∈ es.map (·.fileName), other = place ++ [.text name] := by
  constructor
  · intro h
    obtain ⟨e, he, rfl⟩ := List.mem_map.1 h
    exact ⟨_, List.mem_map_of_mem he, rfl⟩
  · rintro ⟨name, hname, rfl⟩
    obtain ⟨e, he, rfl⟩ := List.mem_map.1 hname
    exact List.mem_map_of_mem he

/-- **After files were taken away,** a listing is the old one less their entries. -/
theorem list_without (h : t.Leads folder place mode) (hl : list folder t = .ok entries)
    {places : List Place} (hp : t.AllFiles places) :
    list folder (t.without places)
      = .ok (entries.filter fun e => !places.contains (placeIn place e)) := by
  have h' := h.without hp
  obtain ⟨hread, rfl⟩ := (list_eq_ok_iff h).1 hl
  rw [list_eq_ok_iff h', h'.isSearchable, h.isSearchable, Tree.children_without]
  refine ⟨hread, ?_⟩
  rw [List.filter_filterMap, List.filterMap_filter]
  refine List.filterMap_congr fun ⟨name, o⟩ _ => ?_
  cases he : entryOf? folder (Object.folder mode).maySearch (name, o) with
  | none => simp
  | some e =>
    obtain ⟨s, f, rfl, rfl, -, rfl⟩ := entryOf?_eq_some_iff.1 he
    simp [placeIn, Option.filter]

/-- Entries of a listing stand for files. -/
theorem allFiles_of_mem_list (h : t.Leads folder place mode) (hl : list folder t = .ok entries)
    {removed : List Entry} (hsub : ∀ e ∈ removed, e ∈ entries) :
    t.AllFiles (removed.map (placeIn place)) := by
  intro p hp
  obtain ⟨e, he, rfl⟩ := List.mem_map.1 hp
  obtain ⟨name, f, hf, rfl⟩ := (mem_list_iff h hl).1 (hsub e he)
  rw [placeIn, Entry.fileName_ofName]
  exact ⟨f, Tree.fileAt?_eq_some_iff.1 (Tree.shownFile?_eq_some_iff.1 hf).2⟩

/-- A file of a listing is among those at some places if its entry is among theirs. -/
theorem placeIn_mem_map_iff (h : t.Leads folder place mode) (hl : list folder t = .ok entries)
    {removed : List Entry} (hsub : ∀ e ∈ removed, e ∈ entries) {e : Entry} (he : e ∈ entries) :
    placeIn place e ∈ removed.map (placeIn place) ↔ e ∈ removed := by
  refine ⟨fun hmem => ?_, List.mem_map_of_mem⟩
  obtain ⟨e', he', heq⟩ := List.mem_map.1 hmem
  have hname : e'.fileName = e.fileName := by simpa [placeIn] using heq
  exact List.inj_on_of_nodup_map (nodup_list h hl) (hsub e' he') he hname ▸ he'

/-- **After the files were taken away that a test picks,** a listing has those that it does not
pick. -/
theorem list_without_filter (h : t.Leads folder place mode) (hl : list folder t = .ok entries)
    (picks : Entry → Bool) :
    list folder (t.without ((entries.filter picks).map (placeIn place)))
      = .ok (entries.filter fun e => !picks e) := by
  have hsub : ∀ e ∈ entries.filter picks, e ∈ entries := fun e => List.mem_of_mem_filter
  rw [list_without h hl (allFiles_of_mem_list h hl hsub)]
  congr 1
  refine List.filter_congr fun e he => ?_
  rw [Bool.eq_iff_iff]
  simp only [Bool.not_eq_true', List.contains_eq_mem, decide_eq_false_iff_not,
    placeIn_mem_map_iff h hl hsub he, List.mem_filter, he, true_and, Bool.not_eq_true]

/-! ### Removing files of a listing -/

/-- A removal that succeeds is reported. -/
theorem removeEntry_eq {e : Entry} {t' : Tree} (h : t.remove e.path = .ok t') :
    removeEntry e t = ({ removed := [e.fileName] }, t') := by
  rw [removeEntry, remove, h]

/-- Could files of a listing be removed, each on its own? -/
structure Removable (t : Tree) (folder : Path) (place : Place) (removed : List Entry) : Prop where
  path : ∀ e ∈ removed, e.path = folder.join e.fileName
  file : ∀ e ∈ removed, ∃ f, t.fileAt? place e.fileName = some f
  alone : ∀ e ∈ removed, ∃ t', t.remove (folder.join e.fileName) = .ok t'
  distinct : (removed.map (·.fileName)).Nodup

namespace Removable

variable {first rest : List Entry}

/-- No files can be removed, as nothing is to be done. -/
theorem nil : Removable t folder place [] :=
  ⟨nofun, nofun, nofun, .nil⟩

/-- Files that can be removed are files. -/
theorem allFiles (h : Removable t folder place first) :
    t.AllFiles (first.map (placeIn place)) := by
  intro p hp
  obtain ⟨e, he, rfl⟩ := List.mem_map.1 hp
  obtain ⟨f, hf⟩ := h.file e he
  exact ⟨f, Tree.fileAt?_eq_some_iff.1 hf⟩

/-- Of files that can be removed, so can those in front. -/
theorem left (h : Removable t folder place (first ++ rest)) : Removable t folder place first where
  path e he := h.path e (List.mem_append_left _ he)
  file e he := h.file e (List.mem_append_left _ he)
  alone e he := h.alone e (List.mem_append_left _ he)
  distinct := by
    have hdistinct := h.distinct
    rw [List.map_append] at hdistinct
    exact hdistinct.of_append_left

/-- Files that can be removed can be so in any order. -/
theorem of_perm (h : Removable t folder place first) (hperm : first.Perm rest) :
    Removable t folder place rest where
  path e he := h.path e (hperm.mem_iff.2 he)
  file e he := h.file e (hperm.mem_iff.2 he)
  alone e he := h.alone e (hperm.mem_iff.2 he)
  distinct := (hperm.map _).nodup_iff.1 h.distinct

/-- **Removals do not stand in each other's way.** -/
theorem without (hl : t.Leads folder place mode) (h : Removable t folder place (first ++ rest)) :
    Removable (t.without (first.map (placeIn place))) folder place rest := by
  have hl' := hl.without h.left.allFiles
  have hdistinct := h.distinct
  rw [List.map_append, List.nodup_append] at hdistinct
  have hother : ∀ e ∈ rest, (t.without (first.map (placeIn place))).fileAt? place e.fileName
      = t.fileAt? place e.fileName := by
    intro e he
    rw [Tree.fileAt?_without, if_neg]
    intro hmem
    obtain ⟨e', he', heq⟩ := List.mem_map.1 hmem
    have hname : e'.fileName = e.fileName := by simpa [placeIn] using heq
    exact hdistinct.2.2 _ (List.mem_map_of_mem he') _ (List.mem_map_of_mem he) hname
  refine ⟨fun e he => h.path e (List.mem_append_right _ he), ?_, ?_, hdistinct.2.1⟩
  · intro e he
    rw [hother e he]
    exact h.file e (List.mem_append_right _ he)
  · intro e he
    obtain ⟨f, hf⟩ := h.file e (List.mem_append_right _ he)
    obtain ⟨t', ht'⟩ := h.alone e (List.mem_append_right _ he)
    obtain ⟨hr, hchange⟩ := hl.of_remove hf ht'
    rw [hl.mayChange, ← hl'.mayChange] at hchange
    exact ⟨_, hl'.remove_eq ((hother e he).trans hf) hr hchange⟩

end Removable

/-- **Files that could each be removed alone are removed together,** and nothing else is. -/
theorem removeEntries_eq (hl : t.Leads folder place mode) {removed : List Entry}
    (h : Removable t folder place removed) :
    removeEntries removed t
      = ({ removed := removed.map (·.fileName) }, t.without (removed.map (placeIn place))) := by
  induction removed generalizing t with
  | nil => simp [removeEntries, Tree.without_nil]
  | cons e rest ih =>
    have hcons : Removable t folder place ([e] ++ rest) := h
    obtain ⟨f, hf⟩ := h.file e List.mem_cons_self
    obtain ⟨t', ht'⟩ := h.alone e List.mem_cons_self
    obtain ⟨hr, hchange⟩ := hl.of_remove hf ht'
    have hfirst : t.remove e.path = .ok (t.without [placeIn place e]) := by
      rw [h.path e List.mem_cons_self]
      exact hl.remove_eq hf hr hchange
    have hrest : removeEntries rest (t.without [placeIn place e]) = _ :=
      ih (hl.without hcons.left.allFiles) (hcons.without hl)
    rw [removeEntries, removeEntry_eq hfirst]
    dsimp only
    rw [hrest]
    exact Prod.ext rfl (Tree.without_append _ _ _)

end Store
end JobSpool
