/-
# The files right in a folder

A folder is a map from names to files (`Tree.fileAt?`), and the calls of the store act on
that map, under paths that are a folder's path and one more name.  `Tree.Leads` says that a
path leads to a folder of a sound tree.  Then a name that has a file there is found
(`Leads.locate_file`), and what is found at all stands under the name, unless a link leads on
(`Leads.locate_eq_ok`).  Removing a file takes away its place and nothing else
(`Leads.remove_eq`); what such a removal asks for is known from any one that succeeds
(`Leads.of_remove`).

Removing many files one after another takes away all their places (`Leads.removeEntries_eq`):
files decide nothing about where a path leads, so each removal leaves the others as they were.
`Tree.without` is the tree that is left, and a listing of the folder is afterwards what it was,
less the entries of the files that are gone (`Leads.list_without`).
-/

import JobSpool.Proofs.Walks
import Mathlib.Data.List.Nodup

namespace JobSpool
namespace Files
namespace Tree

/-! ### A tree without some places -/

/-- The tree with nothing at the given places. -/
def without (t : Tree) (places : List Place) : Tree :=
  { t with entries := t.entries.filter fun e => !places.contains e.1 }

/-- Erasing a place is leaving the tree without it. -/
theorem erase_eq_without (t : Tree) (place : Place) : t.erase place = t.without [place] := by
  unfold erase without
  congr 1
  refine List.filter_congr fun e _ => ?_
  rw [Bool.eq_iff_iff]
  simp

/-- A tree without no places is the tree. -/
theorem without_nil (t : Tree) : t.without [] = t := by
  simp [without]

/-- Places taken away in two goes are taken away in one. -/
theorem without_append (t : Tree) (places more : List Place) :
    (t.without places).without more = t.without (places ++ more) := by
  unfold without
  congr 1
  rw [List.filter_filter]
  refine List.filter_congr fun e _ => ?_
  simp [Bool.and_comm]

/-- A tree is the same without the same places, in whichever order they are listed. -/
theorem without_congr (t : Tree) {places places' : List Place}
    (h : ∀ place, place ∈ places ↔ place ∈ places') : t.without places = t.without places' := by
  unfold without
  congr 1
  refine List.filter_congr fun e _ => ?_
  rw [Bool.eq_iff_iff]
  simp [h]

/-- Nothing stands at a place that was taken away, and elsewhere stands what stood there. -/
theorem at?_without {t : Tree} {places : List Place} {place : Place} (h : place ≠ []) :
    (t.without places).at? place = if place ∈ places then none else t.at? place := by
  unfold at? without
  rw [if_neg h, if_neg h, List.find?_filter]
  split
  · rename_i hmem
    rw [Option.map_eq_none_iff, List.find?_eq_none]
    rintro e - he
    have hat : e.1 ∉ places ∧ e.1 = place := by simpa using he
    exact hat.1 (hat.2 ▸ hmem)
  · rename_i hmem
    congr 2
    funext e
    by_cases he : e.1 = place
    · simp [he, hmem]
    · simp [he]

/-- What stands at a place is not touched by taking others away. -/
theorem at?_without_of_notMem {t : Tree} {places : List Place} {place : Place}
    (h : place ∉ places) : (t.without places).at? place = t.at? place := by
  by_cases hnil : place = []
  · simp [hnil, at?]
  · rw [at?_without hnil, if_neg h]

/-- Do the places hold files? -/
def AllFiles (t : Tree) (places : List Place) : Prop :=
  ∀ place ∈ places, ∃ f, t.at? place = some (.file f)

/-- Taking files away touches nothing but files. -/
theorem at?_without_of_ne_file {t : Tree} {places : List Place} (hp : t.AllFiles places)
    {place : Place} (h : ∀ f, t.at? place ≠ some (.file f)) :
    (t.without places).at? place = t.at? place := by
  refine at?_without_of_notMem fun hmem => ?_
  obtain ⟨f, hf⟩ := hp place hmem
  exact h f hf

/-- Taking files away does not change where any path leads. -/
theorem keeps_without {t : Tree} {places : List Place} (hp : t.AllFiles places) :
    t.Keeps (t.without places) := by
  refine ⟨rfl, fun place o ho hf => ?_⟩
  rw [at?_without_of_ne_file hp, ho]
  intro f h
  rw [ho] at h
  exact hf f (Option.some.inj h)

/-- What stands in the tree that is left has stood there before. -/
theorem at?_of_at?_without {t : Tree} {places : List Place} {place : Place} {o : Object}
    (h : (t.without places).at? place = some o) : t.at? place = some o := by
  by_cases hnil : place = []
  · simpa [hnil, at?] using h
  · rw [at?_without hnil] at h
    split at h
    · cases h
    · exact h

/-- **A sound tree stays sound** when files are taken away. -/
theorem Sound.without {t : Tree} (hs : t.Sound) {places : List Place} (hp : t.AllFiles places) :
    (t.without places).Sound where
  distinct := hs.distinct.sublist (List.filter_sublist.map _)
  legal e he := hs.legal e (List.mem_of_mem_filter he)
  housed place o ho := by
    obtain ⟨mode, hmode⟩ := hs.housed place o (at?_of_at?_without ho)
    exact ⟨mode, (keeps_without hp).folder hmode⟩
  home := by
    obtain ⟨mode, hmode⟩ := hs.home
    exact ⟨mode, (keeps_without hp).folder hmode⟩

/-! ### The map of a folder -/

/-- The file under a name in a folder. -/
def fileAt? (t : Tree) (folder : Place) (name : String) : Option File :=
  match t.at? (folder ++ [.text name]) with
  | some (.file f) => some f
  | _ => none

/-- A folder has a file under a name if the file stands at the place one name below. -/
theorem fileAt?_eq_some_iff {t : Tree} {folder : Place} {name : String} {f : File} :
    t.fileAt? folder name = some f ↔ t.at? (folder ++ [.text name]) = some (.file f) := by
  unfold fileAt?
  split <;> simp_all

/-- Whatever stands in a folder of a sound tree has a legal name. -/
theorem Sound.isLegal {t : Tree} (hs : t.Sound) {folder : Place} {name : Name} {o : Object}
    (h : t.at? (folder ++ [name]) = some o) : name.IsLegal := by
  rw [at?, if_neg (by simp), Option.map_eq_some_iff] at h
  obtain ⟨e, he, -⟩ := h
  have hplace : e.1 = folder ++ [name] := by simpa using List.find?_some he
  exact hs.legal e (List.mem_of_find?_eq_some he) name (by simp [hplace])

/-- A list with one entry for each place holds what stands at a place, and nothing else for it. -/
theorem mem_entries_iff_of_nodup {t : Tree} (hd : (t.entries.map (·.1)).Nodup) {place : Place}
    {o : Object} (hne : place ≠ []) : (place, o) ∈ t.entries ↔ t.at? place = some o := by
  rw [at?, if_neg hne, Option.map_eq_some_iff]
  constructor
  · intro hmem
    obtain ⟨e, he⟩ : ∃ e, t.entries.find? (·.1 == place) = some e := by
      rw [← Option.isSome_iff_exists, List.find?_isSome]
      exact ⟨_, hmem, beq_self_eq_true place⟩
    have hplace : e.1 = place := by simpa using List.find?_some he
    have heq : e = (place, o) :=
      List.inj_on_of_nodup_map hd (List.mem_of_find?_eq_some he) hmem hplace
    exact ⟨e, he, by rw [heq]⟩
  · rintro ⟨e, he, rfl⟩
    have hplace : e.1 = place := by simpa using List.find?_some he
    exact hplace ▸ List.mem_of_find?_eq_some he

/-- The list of a sound tree holds what stands at each place, and nothing else. -/
theorem Sound.mem_entries_iff {t : Tree} (hs : t.Sound) {place : Place} {o : Object}
    (hne : place ≠ []) : (place, o) ∈ t.entries ↔ t.at? place = some o :=
  mem_entries_iff_of_nodup hs.distinct hne

/-- The test for a folder, spelled out. -/
theorem any_isFolder_iff {o : Option Object} :
    o.any Object.isFolder = true ↔ ∃ mode, o = some (.folder mode) := by
  rcases o with _ | (f | mode | target) <;> simp [Object.isFolder]

/-- Soundness, by the list of the tree: it can be checked entry by entry. -/
theorem sound_iff {t : Tree} : t.Sound ↔ (t.entries.map (·.1)).Nodup ∧
    (∀ e ∈ t.entries, ∀ name ∈ e.1, name.IsLegal) ∧
      (∀ e ∈ t.entries, (t.at? e.1.dropLast).any Object.isFolder = true) ∧
        (t.at? t.home).any Object.isFolder = true := by
  constructor
  · intro hs
    refine ⟨hs.distinct, hs.legal, fun e he => ?_, any_isFolder_iff.2 hs.home⟩
    by_cases hnil : e.1 = []
    · rw [hnil]
      rfl
    · exact any_isFolder_iff.2 (hs.housed e.1 e.2 ((hs.mem_entries_iff hnil).1 he))
  · rintro ⟨hdistinct, hlegal, hhoused, hhome⟩
    refine ⟨hdistinct, hlegal, fun place o ho => ?_, any_isFolder_iff.1 hhome⟩
    by_cases hnil : place = []
    · exact ⟨folderMode, by rw [hnil]; rfl⟩
    · rw [at?, if_neg hnil, Option.map_eq_some_iff] at ho
      obtain ⟨e, he, -⟩ := ho
      have hplace : e.1 = place := by simpa using List.find?_some he
      exact hplace ▸ any_isFolder_iff.1 (hhoused e (List.mem_of_find?_eq_some he))

/-- **Whether a tree is sound can be checked** entry by entry. -/
instance (t : Tree) : Decidable t.Sound :=
  decidable_of_iff _ sound_iff.symm

/-- The children of a folder in a sound tree are what stands one name below it. -/
theorem Sound.mem_children_iff {t : Tree} (hs : t.Sound) {folder : Place} {name : Name}
    {o : Object} : (name, o) ∈ t.children folder ↔ t.at? (folder ++ [name]) = some o := by
  rw [← hs.mem_entries_iff (by simp), children, List.mem_filterMap]
  constructor
  · rintro ⟨e, he, heq⟩
    rw [Option.map_eq_some_iff] at heq
    obtain ⟨n, hn, heq⟩ := heq
    rw [childOf?_eq_some_iff] at hn
    injection heq with hname hobj
    subst hname hobj
    exact hn ▸ he
  · intro he
    refine ⟨_, he, ?_⟩
    rw [childOf?_eq_some_iff.2 rfl]
    rfl

/-! ### A name that is looked up in a folder -/

/-- Is the last name of a path looked up in a folder? -/
structure LooksUp (t : Tree) (path : Path) (place : Place) (name : String) : Prop where
  isStep : Path.IsStep name
  folder : ∃ mode, t.at? place = some (.folder mode)
  locate : refusal? path = none → ∀ aim, ∃ jump,
    t.locate aim path = (walkWith jump t aim false place [.down name]).mapError .system

/-- **Where a path with such a name leads:** to where the name stands, or would stand, in the
folder.
Only a link that is followed leads elsewhere. -/
theorem LooksUp.locate_eq_ok {t : Tree} {path : Path} {place : Place} {name : String}
    (h : t.LooksUp path place name) {aim : Aim} {spot : Spot} (hok : t.locate aim path = .ok spot) :
    refusal? path = none ∧ t.maySearch place = true ∧ (Name.text name).IsLegal ∧
      ((t.at? (place ++ [.text name]) = none ∧ spot = .vacant place name) ∨
        (∃ target, t.at? (place ++ [.text name]) = some (.link target) ∧ aim.follows = true) ∨
        ∃ o, t.at? (place ++ [.text name]) = some o ∧
          spot = .taken (place ++ [.text name]) o) := by
  have hr := refusal?_of_locate hok
  obtain ⟨jump, hlocate⟩ := h.locate hr aim
  rw [hlocate] at hok
  -- The limit on the number of links does not matter: the walk is at its last step.
  have hwalk : walkWith jump t aim false place [.down name] = .ok spot := by
    cases hw : walkWith jump t aim false place [.down name] with
    | error cause =>
      rw [hw] at hok
      cases hok
    | ok spot' =>
      rw [hw] at hok
      exact congrArg Except.ok (Except.ok.inj hok)
  have hm := maySearch_of_walkWith hwalk
  refine ⟨hr, hm, ?_⟩
  by_cases hlength : nameLimit < name.utf8ByteSize
  · simp [walkWith, hm, hlength] at hwalk
  · refine ⟨⟨h.isStep, Nat.not_lt.1 hlength⟩, ?_⟩
    cases hat : t.at? (place ++ [.text name]) with
    | none =>
      have hspot : Spot.vacant place name = spot := by
        simpa [walkWith, hm, hlength, hat] using hwalk
      exact Or.inl ⟨rfl, hspot.symm⟩
    | some o =>
      cases o with
      | file f =>
        have hspot : Spot.taken (place ++ [.text name]) (.file f) = spot := by
          simpa [walkWith, hm, hlength, hat] using hwalk
        exact Or.inr (Or.inr ⟨_, rfl, hspot.symm⟩)
      | folder mode' =>
        have hspot : Spot.taken (place ++ [.text name]) (.folder mode') = spot := by
          simpa [walkWith, hm, hlength, hat] using hwalk
        exact Or.inr (Or.inr ⟨_, rfl, hspot.symm⟩)
      | link target =>
        cases hfollows : aim.follows with
        | true => exact Or.inr (Or.inl ⟨target, rfl, rfl⟩)
        | false =>
          have hspot : Spot.taken (place ++ [.text name]) (.link target) = spot := by
            simpa [walkWith, hm, hlength, hat, hfollows] using hwalk
          exact Or.inr (Or.inr ⟨_, rfl, hspot.symm⟩)

/-! ### A folder that a path leads to -/

/-- Does a path lead to a folder of a sound tree? -/
structure Leads (t : Tree) (folder : Path) (place : Place) (mode : Nat) : Prop where
  sound : t.Sound
  find : t.find folder = .ok (place, .folder mode)

/-- The path of a folder leads to some place. -/
theorem exists_leads_of_isFolder {t : Tree} (hs : t.Sound) {folder : Path}
    (h : t.isFolder folder = true) : ∃ place mode, t.Leads folder place mode := by
  rw [isFolder] at h
  split at h
  · rename_i place o hfind
    cases o with
    | folder mode => exact ⟨place, mode, hs, hfind⟩
    | file f => cases h
    | link target => cases h
  · cases h

namespace Leads

variable {t : Tree} {folder : Path} {place : Place} {mode : Nat} {name : String} {f : File}

/-- What the path of a folder leads to is a folder. -/
theorem at? (h : t.Leads folder place mode) : t.at? place = some (.folder mode) := by
  obtain ⟨-, hwalk⟩ := find_eq_ok_iff.1 h.find
  obtain ⟨_, hstart⟩ := h.sound.exists_folder_start folder
  exact walk_hasSpot h.sound (fun _ => Path.isStep_of_mem_steps) hstart hwalk

/-- A path leads to one place. -/
theorem place_unique (h : t.Leads folder place mode) {place' : Place} {mode' : Nat}
    (h' : t.Leads folder place' mode') : place' = place :=
  (Prod.mk.inj (Except.ok.inj (h'.find.symm.trans h.find))).1

/-- A path of a folder leads to it still when only files came and went. -/
theorem of_keeps (h : t.Leads folder place mode) {t' : Tree} (hs : t'.Sound) (hk : t.Keeps t') :
    t'.Leads folder place mode :=
  ⟨hs, find_of_keeps h.sound hk h.find⟩

/-- A path of a folder leads to it still when files were taken away. -/
theorem without (h : t.Leads folder place mode) {places : List Place} (hp : t.AllFiles places) :
    (t.without places).Leads folder place mode :=
  h.of_keeps (h.sound.without hp) (keeps_without hp)

/-- What a path leads to as a folder passes the test for one. -/
theorem isFolder (h : t.Leads folder place mode) : t.isFolder folder = true := by
  rw [Tree.isFolder, h.find]
  rfl

/-- A folder that keeps standing is one that stood there. -/
theorem before_of_keeps {t' : Tree} (h : t'.Leads folder place mode) (hs : t.Sound)
    (hk : t.Keeps t') (hfolder : t.isFolder folder = true) : t.Leads folder place mode := by
  obtain ⟨place', mode', hl⟩ := exists_leads_of_isFolder hs hfolder
  have hsame := (hl.of_keeps h.sound hk).find.symm.trans h.find
  cases hsame
  exact hl

/-- Whether a folder may be searched is told by its permissions, when it is asked for by its
path, -/
theorem isSearchable (h : t.Leads folder place mode) :
    t.isSearchable folder = (Object.folder mode).maySearch := by
  simp [Tree.isSearchable, h.find, Object.isFolder]

/-- and by its place. -/
theorem maySearch (h : t.Leads folder place mode) :
    t.maySearch place = (Object.folder mode).maySearch := by
  simp [Tree.maySearch, h.at?]

/-- Names may come and go in a folder if it may be written and searched. -/
theorem mayChange (h : t.Leads folder place mode) :
    t.mayChange place = ((Object.folder mode).mayWrite && (Object.folder mode).maySearch) := by
  simp [Tree.mayChange, h.at?]

/-- Where names may come and go, they are followed. -/
theorem maySearch_of_mayChange (h : t.Leads folder place mode) (hm : t.mayChange place = true) :
    (Object.folder mode).maySearch = true := by
  rw [h.mayChange] at hm
  exact (Bool.and_eq_true_iff.1 hm).2

/-- A name is looked up in the folder by one step down. -/
theorem exists_locate (h : t.Leads folder place mode) (hn : Path.IsStep name)
    (hr : refusal? (folder.join name) = none) (aim : Aim) :
    ∃ jump, t.locate aim (folder.join name)
      = (walkWith jump t aim false place [.down name]).mapError .system :=
  exists_locate_join h.sound h.find hn hr aim

/-- A file of a folder is found under its name, whatever is looked for. -/
theorem locate_file (h : t.Leads folder place mode) (hf : t.fileAt? place name = some f)
    (hr : refusal? (folder.join name) = none) (hm : (Object.folder mode).maySearch = true)
    (aim : Aim) :
    t.locate aim (folder.join name) = .ok (.taken (place ++ [.text name]) (.file f)) := by
  rw [fileAt?_eq_some_iff] at hf
  obtain ⟨hstep, hsize⟩ := h.sound.isLegal hf
  obtain ⟨jump, hlocate⟩ := h.exists_locate hstep hr aim
  have hm' : t.maySearch place = true := h.maySearch.trans hm
  have hwalk : walkWith jump t aim false place [.down name]
      = .ok (.taken (place ++ [.text name]) (.file f)) := by
    simp [walkWith, hm', hf, Nat.not_lt.2 hsize]
  rw [hlocate, hwalk]
  rfl

/-- In a folder that may not be searched no name is found. -/
theorem locate_of_not_maySearch (h : t.Leads folder place mode) (hn : Path.IsStep name)
    (hr : refusal? (folder.join name) = none) (hm : (Object.folder mode).maySearch = false)
    (aim : Aim) : t.locate aim (folder.join name) = .error (.system .denied) := by
  obtain ⟨jump, hlocate⟩ := h.exists_locate hn hr aim
  have hm' : t.maySearch place = false := h.maySearch.trans hm
  rw [hlocate, walkWith_cons_of_not_maySearch hm']
  rfl

/-- A path with one more name looks up the name in the folder. -/
theorem looksUp (h : t.Leads folder place mode) (hn : Path.IsStep name) :
    t.LooksUp (folder.join name) place name :=
  ⟨hn, ⟨mode, h.at?⟩, h.exists_locate hn⟩

/-- **Where a path into a folder leads:** to where its name stands, or would stand, in the folder.
Only a link that is followed leads elsewhere. -/
theorem locate_eq_ok (h : t.Leads folder place mode) (hn : Path.IsStep name) {aim : Aim}
    {spot : Spot} (hok : t.locate aim (folder.join name) = .ok spot) :
    refusal? (folder.join name) = none ∧ (Object.folder mode).maySearch = true ∧
      (Name.text name).IsLegal ∧
        ((t.at? (place ++ [.text name]) = none ∧ spot = .vacant place name) ∨
          (∃ target, t.at? (place ++ [.text name]) = some (.link target) ∧ aim.follows = true) ∨
          ∃ o, t.at? (place ++ [.text name]) = some o ∧
            spot = .taken (place ++ [.text name]) o) := by
  rw [← h.maySearch]
  exact (h.looksUp hn).locate_eq_ok hok

end Leads

/-! ### Removing files -/

/-- A path that a name was joined to ends in that name. -/
theorem endsInName_join {folder : Path} (hf : folder.text.toList ≠ []) {name : String}
    (hn : Path.IsStep name) : endsInName (folder.join name) = true := by
  rw [endsInName, (Path.steps_join hf hn).1, List.getLast?_concat]

/-- The path to a name in a folder is never the empty one. -/
theorem refusal?_join_ne_noEntry {folder : Path} (hf : folder.text.toList ≠ []) {name : String}
    (hn : Path.IsStep name) : refusal? (folder.join name) ≠ some (.system .noEntry) := by
  obtain ⟨slash, htext⟩ := Path.text_join hf hn
  have hempty : (folder.join name).text.isEmpty = false :=
    Path.isEmpty_eq_false (by simp [htext, hf])
  intro h
  rw [refusal?, hempty, if_neg Bool.false_ne_true] at h
  split at h
  · cases h
  · split at h <;> cases h

namespace Leads

variable {t : Tree} {folder : Path} {place : Place} {mode : Nat} {name : String} {f : File}

/-- The path of a folder is not empty. -/
theorem text_ne_nil (h : t.Leads folder place mode) : folder.text.toList ≠ [] :=
  text_ne_nil_of_refusal? (find_eq_ok_iff.1 h.find).1

/-- **Removing a file** takes away what stands under its name, and nothing else. -/
theorem remove_eq (h : t.Leads folder place mode) (hf : t.fileAt? place name = some f)
    (hr : refusal? (folder.join name) = none) (hm : t.mayChange place = true) :
    t.remove (folder.join name) = .ok (t.without [place ++ [.text name]]) := by
  obtain ⟨hstep, -⟩ := h.sound.isLegal (fileAt?_eq_some_iff.1 hf)
  rw [remove, h.locate_file hf hr (h.maySearch_of_mayChange hm)]
  simp [endsInName_join h.text_ne_nil hstep, (Path.steps_join h.text_ne_nil hstep).2.2, hm,
    Object.isFolder, erase_eq_without]

/-- What the removal of a file asks for. -/
theorem of_remove (h : t.Leads folder place mode) (hf : t.fileAt? place name = some f)
    {t' : Tree} (hok : t.remove (folder.join name) = .ok t') :
    refusal? (folder.join name) = none ∧ t.mayChange place = true := by
  obtain ⟨hstep, -⟩ := h.sound.isLegal (fileAt?_eq_some_iff.1 hf)
  obtain ⟨spot, hlocate⟩ : ∃ spot, t.locate .itself (folder.join name) = .ok spot := by
    cases hlocate : t.locate .itself (folder.join name) with
    | ok spot => exact ⟨spot, rfl⟩
    | error fault =>
      rw [remove, hlocate] at hok
      cases hok
  obtain ⟨hr, hm, -⟩ := h.locate_eq_ok hstep hlocate
  refine ⟨hr, ?_⟩
  by_contra hchange
  rw [Bool.not_eq_true] at hchange
  rw [remove, h.locate_file hf hr hm] at hok
  simp [endsInName_join h.text_ne_nil hstep, (Path.steps_join h.text_ne_nil hstep).2.2,
    hchange] at hok

end Leads

end Tree
end Files
end JobSpool
