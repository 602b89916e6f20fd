/-
# What a call may change in a tree

A call of the store creates files, writes them, removes them, and makes a folder when one is
missing.  `Tree.Spares` says what all of this leaves alone: folders and links stay, no link
is new, and guarded places are as they were.  It composes (`Spares.trans`), and a call spares
the guarded places when each of its steps does.

Making folders is such a change (`Grows.spares`), where nothing stood.

For one other step it is enough to know the place where something changes (`spares_of_at?`).  A path
into a folder finds that place when the step succeeds (`Leads.locate_eq_ok`), so `create_eq_ok`,
`write_eq_ok`, `remove_eq_ok` and `setMode_eq_ok` tell what a call that succeeds has done, and
what must have held before.
-/

import JobSpool.Proofs.Folders

namespace JobSpool
namespace Files
namespace Tree

/-! ### Putting something into a sound tree -/

/-- What stands at a place after something was put somewhere. -/
theorem at?_put {t : Tree} {place other : Place} {o : Object} :
    (t.put place o).at? other
      = if other = place ∧ place ≠ [] then some o else t.at? other := by
  by_cases h : other = place
  · subst h
    by_cases hnil : other = []
    · simp [hnil, at?]
    · rw [at?_put_self hnil, if_pos ⟨rfl, hnil⟩]
  · rw [at?_put_of_ne h, if_neg fun hp => h hp.1]

/-- Putting an object somewhere does not move the folder of the user. -/
theorem home_put (t : Tree) (place : Place) (o : Object) : (t.put place o).home = t.home := by
  unfold put
  split <;> rfl

/-- The names on the way to anything in a sound tree are legal. -/
theorem Sound.legal_of_at? {t : Tree} (hs : t.Sound) {place : Place} {o : Object}
    (h : t.at? place = some o) : ∀ name ∈ place, name.IsLegal := by
  by_cases hnil : place = []
  · simp [hnil]
  · exact hs.legal _ ((hs.mem_entries_iff hnil).2 h)

/-- A place has one object still when something was put somewhere. -/
theorem distinct_put {t : Tree} (h : (t.entries.map (·.1)).Nodup) (place : Place) (o : Object) :
    ((t.put place o).entries.map (·.1)).Nodup := by
  unfold put
  split
  · have hsame : (t.entries.map fun e => if e.1 == place then (place, o) else e).map (·.1)
        = t.entries.map (·.1) := by
      rw [List.map_map]
      refine List.map_congr_left fun e _ => ?_
      by_cases he : e.1 = place <;> simp [he]
    rwa [hsame]
  · rename_i hany
    rw [List.map_append, List.nodup_append]
    refine ⟨h, List.nodup_singleton _, ?_⟩
    intro a ha b hb hab
    obtain ⟨e, he, rfl⟩ := List.mem_map.1 ha
    rw [List.mem_singleton.1 hb] at hab
    exact hany (List.any_eq_true.2 ⟨e, he, by simp [hab]⟩)

/-- **What is put into a folder leaves the tree sound,** unless it takes the place of a folder
without being one. -/
theorem Sound.put {t : Tree} (hs : t.Sound) {place : Place} {o : Object}
    (hlegal : ∀ name ∈ place, name.IsLegal)
    (hhoused : ∃ mode, t.at? place.dropLast = some (.folder mode))
    (hfolder : ∀ mode, t.at? place = some (.folder mode) → o.isFolder = true) :
    (t.put place o).Sound := by
  -- No folder stops being one, so what stood in a folder still does.
  have hstays : ∀ other, (∃ mode, t.at? other = some (.folder mode)) →
      ∃ mode, (t.put place o).at? other = some (.folder mode) := by
    rintro other ⟨mode, hmode⟩
    rw [at?_put]
    split
    · rename_i heq
      have ho := hfolder mode (heq.1 ▸ hmode)
      cases o with
      | folder mode' => exact ⟨mode', rfl⟩
      | file f => cases ho
      | link target => cases ho
    · exact ⟨mode, hmode⟩
  refine ⟨distinct_put hs.distinct place o, ?_, ?_, ?_⟩
  · intro e he
    unfold Tree.put at he
    split at he
    · obtain ⟨e', he', heq⟩ := List.mem_map.1 he
      split at heq
      · rw [← heq]
        exact hlegal
      · rw [← heq]
        exact hs.legal e' he'
    · rcases List.mem_append.1 he with he | he
      · exact hs.legal e he
      · rw [List.mem_singleton.1 he]
        exact hlegal
  · intro other o' ho'
    rw [at?_put] at ho'
    split at ho'
    · rename_i heq
      rw [heq.1]
      exact hstays _ hhoused
    · exact hstays _ (hs.housed other o' ho')
  · rw [home_put]
    exact hstays _ hs.home

/-! ### Changes that spare what is guarded -/

/-- Does a change leave folders, links and the guarded places as they were? -/
structure Spares (guarded : Place → Prop) (t t' : Tree) : Prop where
  sound : t'.Sound
  keeps : t.Keeps t'
  /-- No link is new. -/
  links : ∀ place target, t'.at? place = some (.link target) → t.at? place = some (.link target)
  same : ∀ place, guarded place → t'.at? place = t.at? place

/-- Is there a file at a place, or nothing? -/
def FileOrFree (t : Tree) (place : Place) : Prop :=
  ∀ o, t.at? place = some o → ∃ f, o = .file f

/-- Where nothing stands there is no folder and no link. -/
theorem fileOrFree_of_at? {t : Tree} {place : Place} (h : t.at? place = none) :
    t.FileOrFree place := by
  intro o ho
  rw [h] at ho
  cases ho

/-- Where a file stands there is no folder and no link. -/
theorem fileOrFree_of_fileAt? {t : Tree} {folder : Place} {name : String} {f : File}
    (h : t.fileAt? folder name = some f) : t.FileOrFree (folder ++ [.text name]) := by
  intro o ho
  rw [fileAt?_eq_some_iff.1 h] at ho
  cases ho
  exact ⟨f, rfl⟩

/-- No change spares everything. -/
theorem Spares.refl (guarded : Place → Prop) {t : Tree} (hs : t.Sound) : Spares guarded t t :=
  ⟨hs, Keeps.refl t, fun _ _ h => h, fun _ _ => rfl⟩

/-- What two changes spare, both together spare. -/
theorem Spares.trans {guarded : Place → Prop} {t t' t'' : Tree} (h : Spares guarded t t')
    (h' : Spares guarded t' t'') : Spares guarded t t'' where
  sound := h'.sound
  keeps := h.keeps.trans h'.keeps
  links place target hp := h.links place target (h'.links place target hp)
  same place hp := (h'.same place hp).trans (h.same place hp)

/-- **A change at one place** spares the rest, when no folder and no link was there. -/
theorem spares_of_at? {guarded : Place → Prop} {t t' : Tree} {place : Place} (hs : t'.Sound)
    (hhome : t'.home = t.home) (hother : ∀ other, other ≠ place → t'.at? other = t.at? other)
    (hbefore : t.FileOrFree place) (hafter : ∀ target, t'.at? place ≠ some (.link target))
    (hguarded : ¬ guarded place) : Spares guarded t t' where
  sound := hs
  keeps := by
    refine ⟨hhome, fun other o ho hfile => ?_⟩
    by_cases h : other = place
    · subst h
      obtain ⟨f, rfl⟩ := hbefore o ho
      exact absurd rfl (hfile f)
    · exact (hother other h).trans ho
  links other target ho := by
    by_cases h : other = place
    · exact absurd (h ▸ ho) (hafter target)
    · exact (hother other h).symm.trans ho
  same other h := by
    refine hother other ?_
    rintro rfl
    exact hguarded h

/-- Taking files away spares every place that has none of them. -/
theorem spares_without {guarded : Place → Prop} {t : Tree} (hs : t.Sound) {places : List Place}
    (hp : t.AllFiles places) (hguarded : ∀ place ∈ places, ¬ guarded place) :
    Spares guarded t (t.without places) where
  sound := hs.without hp
  keeps := keeps_without hp
  links place target h := at?_of_at?_without h
  same place h := by
    by_cases hnil : place = []
    · simp [hnil, at?]
    · rw [at?_without hnil, if_neg fun hmem => hguarded place hmem h]

/-- Does a change only fill the file at a place? -/
structure Fills (place : Place) (t t' : Tree) : Prop where
  sound : t'.Sound
  home : t'.home = t.home
  other : ∀ other, other ≠ place → t'.at? other = t.at? other
  file : ∃ f, t'.at? place = some (.file f)

/-- What is a file may be left as it is. -/
theorem Fills.refl {place : Place} {t : Tree} {f : File} (hs : t.Sound)
    (hf : t.at? place = some (.file f)) : Fills place t t :=
  ⟨hs, rfl, fun _ _ => rfl, f, hf⟩

/-- Filling a place twice is filling it. -/
theorem Fills.trans {place : Place} {t t' t'' : Tree} (h : Fills place t t')
    (h' : Fills place t' t'') : Fills place t t'' where
  sound := h'.sound
  home := h'.home.trans h.home
  other other hne := (h'.other other hne).trans (h.other other hne)
  file := h'.file

/-- Filling a place of a file, or a free one, spares every other place. -/
theorem Fills.spares {guarded : Place → Prop} {place : Place} {t t' : Tree}
    (h : Fills place t t') (hbefore : t.FileOrFree place) (hguarded : ¬ guarded place) :
    Spares guarded t t' := by
  refine spares_of_at? h.sound h.home h.other hbefore (fun target htarget => ?_) hguarded
  obtain ⟨f, hf⟩ := h.file
  rw [hf] at htarget
  cases htarget

/-- Putting a file where nothing or a file stands fills that place. -/
theorem fills_put {t : Tree} (hs : t.Sound) {folder : Place} {mode : Nat}
    (hfolder : t.at? folder = some (.folder mode)) {name : Name} (hn : name.IsLegal)
    (hfree : t.FileOrFree (folder ++ [name])) (f : File) :
    Fills (folder ++ [name]) t (t.put (folder ++ [name]) (.file f)) where
  sound := by
    refine hs.put (fun name' hmem => ?_) ⟨mode, by rwa [List.dropLast_concat]⟩ fun mode' h => ?_
    · rcases List.mem_append.1 hmem with hmem | hmem
      · exact hs.legal_of_at? hfolder name' hmem
      · rwa [List.mem_singleton.1 hmem]
    · obtain ⟨f', hf'⟩ := hfree _ h
      cases hf'
  home := home_put _ _ _
  other other hne := at?_put_of_ne hne
  file := ⟨f, at?_put_self (by simp)⟩

/-! ### Changes that only make folders -/

/-- Is nothing new in a tree but folders, where nothing stood? -/
structure Grows (within : Place → Prop) (t t' : Tree) : Prop where
  sound : t'.Sound
  home : t'.home = t.home
  at? : ∀ place, t'.at? place = t.at? place ∨
    within place ∧ t.at? place = none ∧ ∃ mode, t'.at? place = some (.folder mode)

namespace Grows

variable {within : Place → Prop} {t t' : Tree}

/-- A tree has grown out of itself, by nothing. -/
theorem refl (within : Place → Prop) (hs : t.Sound) : Grows within t t :=
  ⟨hs, rfl, fun _ => Or.inl rfl⟩

/-- What has grown within some places has grown within more of them. -/
theorem mono {wider : Place → Prop} (h : Grows within t t')
    (hwider : ∀ place, within place → wider place) : Grows wider t t' where
  sound := h.sound
  home := h.home
  at? place := (h.at? place).imp_right fun hnew => ⟨hwider place hnew.1, hnew.2⟩

/-- Growing keeps what decides where paths lead. -/
theorem keeps (h : Grows within t t') : t.Keeps t' where
  home := h.home
  at? place o ho _ := by
    rcases h.at? place with hsame | ⟨-, hnone, -⟩
    · exact hsame.trans ho
    · rw [hnone] at ho
      cases ho

/-- Growing spares the places that it is not within. -/
theorem spares {guarded : Place → Prop} (h : Grows within t t')
    (hguarded : ∀ place, within place → ¬ guarded place) : Spares guarded t t' where
  sound := h.sound
  keeps := h.keeps
  links place target hlink := by
    rcases h.at? place with hsame | ⟨-, -, mode, hfolder⟩
    · exact hsame.symm.trans hlink
    · rw [hfolder] at hlink
      cases hlink
  same place hplace := by
    rcases h.at? place with hsame | ⟨hwithin, -⟩
    · exact hsame
    · exact absurd hplace (hguarded place hwithin)

/-- A folder put where nothing stood is growth. -/
theorem put (h : Grows within t t') {place : Place} (hwithin : within place)
    (hnone : t.at? place = none) {mode : Nat} (hs : (t'.put place (.folder mode)).Sound) :
    Grows within t (t'.put place (.folder mode)) where
  sound := hs
  home := (home_put _ _ _).trans h.home
  at? other := by
    rw [at?_put]
    split
    · rename_i heq
      rw [heq.1]
      exact Or.inr ⟨hwithin, hnone, mode, rfl⟩
    · exact h.at? other

end Grows

/-! ### Calls that succeed -/

/-- A path into a folder is refused for its length if the path of the folder is. -/
theorem refusal?_join {folder : Path} {name : String}
    (h : refusal? (folder.join name) = none) (hf : folder.text.toList ≠ [])
    (hn : Path.IsStep name) : refusal? folder = none := by
  obtain ⟨slash, hmore⟩ := Path.text_join hf hn
  rw [refusal?, hmore] at h
  have hne : folder.text.isEmpty = false := Path.isEmpty_eq_false hf
  split at h
  · cases h
  · rename_i hnull
    split at h
    · cases h
    · split at h
      · cases h
      · rename_i hlength
        rw [String.utf8ByteSize_append] at hlength
        have hshort : ¬ pathLimit ≤ folder.text.utf8ByteSize := by omega
        rw [String.toList_append, List.contains_eq_mem, decide_eq_true_eq, List.mem_append,
          not_or] at hnull
        rw [refusal?, hne]
        simp [hnull.1, hshort]

section Calls

variable {t t' : Tree} {folder : Path} {place : Place} {mode : Nat} {name : String}
  {now : Instant}

/-- **A path into a folder that leads somewhere leads there through the folder.** -/
theorem exists_leads_of_locate (hs : t.Sound) (hf : folder.text.toList ≠ [])
    (hn : Path.IsStep name) {aim : Aim} {spot : Spot}
    (h : t.locate aim (folder.join name) = .ok spot) :
    ∃ place mode, t.Leads folder place mode := by
  have hr := refusal?_of_locate h
  obtain ⟨hsteps, habs, -⟩ := Path.steps_join hf hn
  obtain ⟨modeStart, hstart⟩ := hs.exists_folder_start folder
  have hstart' : t.start (folder.join name) = t.start folder := by rw [start, start, habs]
  rw [locate, hr, hsteps, hstart'] at h
  dsimp only at h
  cases hwalk : t.walk aim linkLimit (folder.join name).endsInSlash (t.start folder)
      (folder.steps ++ [.down name]) with
  | error cause =>
    rw [hwalk] at h
    cases h
  | ok spot' =>
    obtain ⟨goal, mode', hgoal, -⟩ := exists_walk_of_append folder.endsInSlash hs (by simp) hstart
      hwalk
    exact ⟨goal, mode', hs, find_eq_ok_iff.2 ⟨refusal?_join hr hf hn, hgoal⟩⟩

/-- A path that leads to an object is taken by it. -/
theorem locate_of_find {path : Path} {o : Object} (h : t.find path = .ok (place, o)) :
    t.locate .target path = .ok (.taken place o) := by
  unfold find at h
  split at h
  · cases h
  · cases h
  · rename_i hlocate
    cases h
    exact hlocate

namespace Leads

/-- **What writing a file has done.** -/
theorem write_eq_ok (h : t.Leads folder place mode) (hn : Path.IsStep name)
    (hfree : t.FileOrFree (place ++ [.text name])) {content : ByteArray}
    (hok : t.write (folder.join name) content now = .ok t') :
    refusal? (folder.join name) = none ∧ (Object.folder mode).maySearch = true ∧
      (Name.text name).IsLegal ∧ ∃ fileMode', t' = t.put (place ++ [.text name])
        (.file ⟨content, fileMode', now⟩) ∧ fileMode'.testBit 7 = true ∧
          (fileMode' = fileMode ∨ ∃ f, t.fileAt? place name = some f ∧ fileMode' = f.mode) := by
  rw [write] at hok
  cases hlocate : t.locate .file (folder.join name) with
  | error fault =>
    rw [hlocate] at hok
    cases hok
  | ok spot =>
    obtain ⟨hr, hm, hlegal, hspot⟩ := h.locate_eq_ok hn hlocate
    refine ⟨hr, hm, hlegal, ?_⟩
    rw [hlocate] at hok
    -- A free name gets a new file, and a file new content; nothing else stands there.
    rcases hspot with ⟨-, rfl⟩ | ⟨target, htarget, -⟩ | ⟨o, ho, rfl⟩
    · dsimp only [add] at hok
      split at hok
      · cases hok
        exact ⟨fileMode, rfl, by decide, Or.inl rfl⟩
      · cases hok
    · obtain ⟨f, hf⟩ := hfree _ htarget
      cases hf
    · obtain ⟨f, rfl⟩ := hfree o ho
      dsimp only at hok
      split at hok
      · rename_i hmay
        cases hok
        exact ⟨f.mode, rfl, hmay, Or.inr ⟨f, fileAt?_eq_some_iff.2 ho, rfl⟩⟩
      · cases hok

/-- **What removing a file has done.** -/
theorem remove_eq_ok (h : t.Leads folder place mode) (hn : Path.IsStep name)
    (hfree : t.FileOrFree (place ++ [.text name]))
    (hok : t.remove (folder.join name) = .ok t') :
    (∃ f, t.fileAt? place name = some f) ∧ t' = t.without [place ++ [.text name]] := by
  have hlocate : ∃ spot, t.locate .itself (folder.join name) = .ok spot := by
    cases hlocate : t.locate .itself (folder.join name) with
    | ok spot => exact ⟨spot, rfl⟩
    | error fault =>
      rw [remove, hlocate] at hok
      cases hok
  obtain ⟨spot, hlocate⟩ := hlocate
  obtain ⟨hr, -, -, ⟨-, rfl⟩ | ⟨target, -, hfollows⟩ | ⟨o, ho, -⟩⟩ := h.locate_eq_ok hn hlocate
  · rw [remove, hlocate] at hok
    simp [endsInName_join h.text_ne_nil hn] at hok
  · cases hfollows
  · obtain ⟨f, rfl⟩ := hfree o ho
    have hf : t.fileAt? place name = some f := fileAt?_eq_some_iff.2 ho
    refine ⟨⟨f, hf⟩, ?_⟩
    rw [h.remove_eq hf hr (h.of_remove hf hok).2] at hok
    exact (Except.ok.inj hok).symm

/-- **A file is written only to a file or where nothing stands,** if no link has the name. -/
theorem fileOrFree_of_write (h : t.Leads folder place mode) (hn : Path.IsStep name)
    (hlink : ∀ target, t.at? (place ++ [.text name]) ≠ some (.link target)) {content : ByteArray}
    (hok : t.write (folder.join name) content now = .ok t') :
    t.FileOrFree (place ++ [.text name]) := by
  intro o ho
  rw [write] at hok
  cases hlocate : t.locate .file (folder.join name) with
  | error fault =>
    rw [hlocate] at hok
    cases hok
  | ok spot =>
    obtain ⟨-, -, -, ⟨hnone, -⟩ | ⟨target, htarget, -⟩ | ⟨o', ho', rfl⟩⟩ :=
      h.locate_eq_ok hn hlocate
    · cases hnone.symm.trans ho
    · exact absurd htarget (hlink target)
    · cases ho'.symm.trans ho
      rw [hlocate] at hok
      cases o with
      | file f => exact ⟨f, rfl⟩
      | link target => exact absurd ho (hlink target)
      | folder mode' => cases hok

/-- **What a path into a folder leads to stands under its own name,** if no link has that name. -/
theorem eq_of_find (h : t.Leads folder place mode) (hn : Path.IsStep name)
    (hlink : ∀ target, t.at? (place ++ [.text name]) ≠ some (.link target)) {place' : Place}
    {o : Object} (hfind : t.find (folder.join name) = .ok (place', o)) :
    place' = place ++ [.text name] ∧ t.at? (place ++ [.text name]) = some o := by
  obtain ⟨-, -, -, ⟨-, hspot⟩ | ⟨target, htarget, -⟩ | ⟨o', ho', hspot⟩⟩ :=
    h.locate_eq_ok hn (locate_of_find hfind)
  · cases hspot
  · exact absurd htarget (hlink target)
  · cases hspot
    exact ⟨rfl, ho'⟩

/-- A folder that a path leads to stands under its own name, too. -/
theorem place_eq (h : t.Leads folder place mode) (hn : Path.IsStep name)
    (hlink : ∀ target, t.at? (place ++ [.text name]) ≠ some (.link target)) {place' : Place}
    {mode' : Nat} (h' : t.Leads (folder.join name) place' mode') :
    place' = place ++ [.text name] :=
  (h.eq_of_find hn hlink h'.find).1

/-- And so does a file. -/
theorem fileAt?_of_file? (h : t.Leads folder place mode) (hn : Path.IsStep name)
    (hlink : ∀ target, t.at? (place ++ [.text name]) ≠ some (.link target)) {f : File}
    (hf : t.file? (folder.join name) = some f) : t.fileAt? place name = some f := by
  unfold file? at hf
  split at hf
  · rename_i hfind
    cases hf
    exact fileAt?_eq_some_iff.2 (h.eq_of_find hn hlink hfind).2
  · cases hf

/-- **What setting the permissions of a file has done.** -/
theorem setMode_eq_ok (h : t.Leads folder place mode) (hn : Path.IsStep name) {f : File}
    (hf : t.fileAt? place name = some f) {mode' : Nat}
    (hok : t.setMode (folder.join name) mode' = .ok t') :
    t' = t.put (place ++ [.text name]) (.file { f with mode := mode' }) := by
  have hat := fileAt?_eq_some_iff.1 hf
  unfold setMode at hok
  split at hok
  · cases hok
  · rename_i hfind
    obtain ⟨rfl, ho⟩ := h.eq_of_find hn (by simp [hat]) hfind
    cases hat.symm.trans ho
    cases hok
    rfl
  · rename_i hfile hfind
    obtain ⟨rfl, ho⟩ := h.eq_of_find hn (by simp [hat]) hfind
    cases hat.symm.trans ho
    exact absurd rfl (hfile _)

/-- **What setting the permissions of a folder in a folder has done.** -/
theorem setMode_folder_eq_ok (h : t.Leads folder place mode) (hn : Path.IsStep name)
    {mode' mode'' : Nat} (hat : t.at? (place ++ [.text name]) = some (.folder mode'))
    (hok : t.setMode (folder.join name) mode'' = .ok t') :
    t' = t.put (place ++ [.text name]) (.folder mode'') := by
  unfold setMode at hok
  split at hok
  · cases hok
  · rename_i hfind
    obtain ⟨-, ho⟩ := h.eq_of_find hn (by simp [hat]) hfind
    cases hat.symm.trans ho
  · rename_i hfind
    obtain ⟨rfl, -⟩ := h.eq_of_find hn (by simp [hat]) hfind
    cases hok
    rfl

end Leads

/-- **What creating a file has done,** and that the folder must have been there. -/
theorem create_eq_ok (hs : t.Sound) (hf : folder.text.toList ≠ []) (hn : Path.IsStep name)
    (hok : t.create (folder.join name) now = .ok t') :
    ∃ place mode, t.Leads folder place mode ∧ t.mayChange place = true ∧
      t.at? (place ++ [.text name]) = none ∧ (Name.text name).IsLegal ∧
        refusal? (folder.join name) = none ∧
          t' = t.put (place ++ [.text name]) (.file ⟨ByteArray.empty, fileMode, now⟩) := by
  rw [create] at hok
  cases hlocate : t.locate .newFile (folder.join name) with
  | error fault =>
    rw [hlocate] at hok
    cases hok
  | ok spot =>
    obtain ⟨place, mode, h⟩ := exists_leads_of_locate hs hf hn hlocate
    rw [hlocate] at hok
    cases spot with
    | taken place' o => cases hok
    | vacant here name' =>
      obtain ⟨hr, -, hlegal, ⟨hnone, hspot⟩ | ⟨target, -, hfollows⟩ | ⟨o, -, hspot⟩⟩ :=
        h.locate_eq_ok hn hlocate
      · cases hspot
        dsimp only [add] at hok
        split at hok
        · rename_i hm
          cases hok
          exact ⟨place, mode, h, hm, hnone, hlegal, hr, rfl⟩
        · cases hok
      · cases hfollows
      · cases hspot

/-- **A file that cannot be created because it exists** does exist. -/
theorem Leads.create_eq_exists (h : t.Leads folder place mode) (hn : Path.IsStep name)
    (hexists : t.create (folder.join name) now = .error (.system .exists)) :
    ∃ o, t.at? (place ++ [.text name]) = some o := by
  cases hat : t.at? (place ++ [.text name]) with
  | some o => exact ⟨o, rfl⟩
  | none =>
    exfalso
    rw [create] at hexists
    cases hr : refusal? (folder.join name) with
    | some fault =>
      rw [locate, hr] at hexists
      cases hexists
      unfold refusal? at hr
      split at hr
      · cases hr
      · split at hr
        · cases hr
        · split at hr <;> cases hr
    | none =>
      obtain ⟨jump, hlocate⟩ := h.exists_locate hn hr .newFile
      rw [hlocate, walkWith] at hexists
      by_cases hm : t.maySearch place = true
      · by_cases hlength : nameLimit < name.utf8ByteSize
        · simp [hm, hlength, Except.mapError] at hexists
        · simp only [hm, hlength, hat, Except.mapError, add, List.isEmpty_nil, Bool.not_true,
            Bool.and_false, Bool.false_eq_true, if_false, if_true, Bool.false_and] at hexists
          split at hexists <;> cases hexists
      · simp [hm, Except.mapError] at hexists

end Calls

end Tree
end Files
end JobSpool
