/-
# What storing an input does to the tree

Storing an input makes sure of a folder, creates a file in it and fills the file.  From any sound
tree the tree afterwards is sound (`sound_ensureFolder`), and when an input was stored, its
name stands in the folder, and nothing else there has changed (`storeInput_eq_ok`).

Once the job root is there, making sure of a principal's folder makes that folder alone, if it was
missing (`grows_ensureFolder`).  And once the folder was made sure of, storing an input changes
nothing but one new file in it (`spares_of_ensureFolder`).  This is so whether the call succeeds or
fails at any point, and whichever calls the medium refuses.
-/

import JobSpool.Proofs.InputNames

namespace JobSpool

namespace Files.Tree

/-! ### Making folders keeps a tree sound -/

/-- **What making a folder has done.** -/
theorem makeFolder_eq_ok {t t' : Tree} (hs : t.Sound) {p : Path}
    (hok : t.makeFolder p = .ok t') :
    ∃ place name, t.HasSpot (.vacant place name) ∧
      t' = t.put (place ++ [.text name]) (.folder folderMode) := by
  rw [makeFolder] at hok
  cases hlocate : t.locate .itself p with
  | error fault =>
    rw [hlocate] at hok
    cases hok
  | ok spot =>
    rw [hlocate] at hok
    cases spot with
    | taken place o => cases hok
    | vacant place name =>
      dsimp only [add] at hok
      split at hok
      · cases hok
        exact ⟨place, name, locate_hasSpot hs hlocate, rfl⟩
      · cases hok

/-- A folder that is put where a name is vacant keeps a tree sound. -/
theorem sound_put_vacant {t : Tree} (hs : t.Sound) {place : Place} {name : String}
    (h : t.HasSpot (.vacant place name)) (mode : Nat) :
    (t.put (place ++ [.text name]) (.folder mode)).Sound := by
  obtain ⟨⟨mode', hplace⟩, -, hlegal⟩ := h
  refine hs.put (fun name' hmem => ?_) ⟨mode', by rwa [List.dropLast_concat]⟩ fun _ _ => rfl
  rcases List.mem_append.1 hmem with hmem | hmem
  · exact hs.legal_of_at? hplace name' hmem
  · rwa [List.mem_singleton.1 hmem]

/-- Making one folder keeps a tree sound. -/
theorem sound_makeFolder {t t' : Tree} (hs : t.Sound) {p : Path}
    (hok : t.makeFolder p = .ok t') : t'.Sound := by
  obtain ⟨place, name, hspot, rfl⟩ := makeFolder_eq_ok hs hok
  exact sound_put_vacant hs hspot _

/-- The folders on the way are made first, if the folder cannot be made at once. -/
theorem makeFoldersBelow_cons (t : Tree) (p parent : Path) (above : List Path) :
    t.makeFoldersBelow p (parent :: above) =
      match t.makeFolder p with
      | .ok t => (.ok (), t)
      | .error (.system .noEntry) =>
        match t.makeFoldersBelow parent above with
        | (.error fault, t) => (.error fault, t)
        | (.ok (), t) =>
          match t.makeFolder p with
          | .ok t => (.ok (), t)
          | .error fault => if t.isFolder p then (.ok (), t) else (.error fault, t)
      | .error fault => if t.isFolder p then (.ok (), t) else (.error fault, t) := (rfl)

/-- **What holds of a tree and stays when a folder is made** holds when a folder and those on the
way to it are made, be it that some of them cannot be. -/
theorem makeFoldersBelow_induction (holds : Tree → Prop)
    (hmake : ∀ {t t' : Tree} {p : Path}, holds t → t.makeFolder p = .ok t' → holds t') {t : Tree}
    (h : holds t) (p : Path) (above : List Path) : holds (t.makeFoldersBelow p above).2 := by
  have hlast : ∀ {t : Tree}, holds t → ∀ p : Path,
      holds (match t.makeFolder p with
        | .ok t => (Except.ok (), t)
        | .error fault => if t.isFolder p then (.ok (), t) else (.error fault, t) :
          Except Fault Unit × Tree).2 := by
    intro t h p
    split
    · rename_i hok
      exact hmake h hok
    · split <;> exact h
  induction above generalizing p with
  | nil => exact hlast h p
  | cons parent above ih =>
    rw [makeFoldersBelow_cons]
    split
    · rename_i hok
      exact hmake h hok
    · have hparent := ih parent
      split
      · rename_i hbelow
        rwa [hbelow] at hparent
      · rename_i hbelow
        rw [hbelow] at hparent
        exact hlast hparent p
    · split <;> exact h

/-- Making the missing folders of a way keeps a tree sound, even if it breaks off. -/
theorem sound_makeFoldersBelow {t : Tree} (hs : t.Sound) (p : Path) (above : List Path) :
    (t.makeFoldersBelow p above).2.Sound :=
  makeFoldersBelow_induction Sound (fun h hok => sound_makeFolder h hok) hs p above

/-- A folder that can be made at once is all that is made. -/
theorem makeFoldersBelow_of_ok {t t' : Tree} {p : Path} (h : t.makeFolder p = .ok t')
    (above : List Path) : t.makeFoldersBelow p above = (.ok (), t') := by
  cases above with
  | nil => rw [makeFoldersBelow, h]
  | cons parent above => rw [makeFoldersBelow_cons, h]

/-- A folder that cannot be made, and not for want of the one above, ends the making. -/
theorem makeFoldersBelow_of_error {t : Tree} {p : Path} {fault : Fault}
    (h : t.makeFolder p = .error fault) (hfault : fault ≠ .system .noEntry)
    (hnot : t.isFolder p = false) (above : List Path) :
    t.makeFoldersBelow p above = (.error fault, t) := by
  cases above with
  | nil =>
    rw [makeFoldersBelow, h]
    simp [hnot]
  | cons parent above =>
    rw [makeFoldersBelow_cons, h]
    split
    · rename_i hok
      cases hok
    · rename_i hentry
      cases hentry
      exact absurd rfl hfault
    · rename_i hother
      cases hother
      simp [hnot]

/-- A place in a folder that is there does not miss anything on the way. -/
theorem locate_ne_noEntry {t : Tree} {folder : Path} {place : Place} {mode : Nat}
    (h : t.Leads folder place mode) {name : String} (hn : Path.IsStep name) :
    t.locate .itself (folder.join name) ≠ .error (.system .noEntry) := by
  intro hlocate
  cases hr : refusal? (folder.join name) with
  | some fault =>
    rw [locate, hr] at hlocate
    cases hlocate
    exact refusal?_join_ne_noEntry h.text_ne_nil hn hr
  | none =>
    obtain ⟨jump, heq⟩ := h.exists_locate hn hr .itself
    rw [heq] at hlocate
    -- The walk is at its last step, and a name that is missing there is vacant to `.itself`.
    have hwalk : walkWith jump t .itself false place [.down name] ≠ .error .noEntry := by
      intro hw
      cases hat : t.at? (place ++ [.text name]) with
      | none =>
        simp [walkWith, hat] at hw
        split at hw
        · cases hw
        · split at hw <;> cases hw
      | some o =>
        cases o <;> simp [walkWith, hat, Aim.opens, Aim.follows] at hw <;>
          (split at hw <;> [cases hw; (split at hw <;> cases hw)])
    cases hw : walkWith jump t .itself false place [.down name] with
    | ok spot =>
      rw [hw] at hlocate
      cases hlocate
    | error cause =>
      rw [hw] at hlocate
      cases hlocate
      exact hwalk hw

/-- **A missing folder in a folder is made at once,** or not at all. -/
theorem makeFolders_join {t : Tree} {folder : Path} {place : Place} {mode : Nat}
    (h : t.Leads folder place mode) {name : String} (hn : Path.IsStep name)
    (hnot : t.isFolder (folder.join name) = false) :
    (∃ fault, t.makeFolders (folder.join name) = (.error fault, t)) ∨
      (t.HasSpot (.vacant place name) ∧ t.makeFolders (folder.join name)
        = (.ok (), t.put (place ++ [.text name]) (.folder folderMode))) := by
  rw [makeFolders]
  cases hlocate : t.locate .itself (folder.join name) with
  | error fault =>
    have hmake : t.makeFolder (folder.join name) = .error fault := by rw [makeFolder, hlocate]
    have hfault : fault ≠ .system .noEntry := by
      rintro rfl
      exact locate_ne_noEntry h hn hlocate
    exact Or.inl ⟨fault, makeFoldersBelow_of_error hmake hfault hnot _⟩
  | ok spot =>
    cases spot with
    | taken place' o =>
      have hmake : t.makeFolder (folder.join name) = .error (.system .exists) := by
        rw [makeFolder, hlocate]
      exact Or.inl ⟨_, makeFoldersBelow_of_error hmake (by decide) hnot _⟩
    | vacant here name' =>
      obtain ⟨-, -, -, ⟨-, heq⟩ | ⟨target, -, hfollows⟩ | ⟨o, -, heq⟩⟩ :=
        h.locate_eq_ok hn hlocate
      · cases heq
        have hspot : t.HasSpot (.vacant place name) := locate_hasSpot h.sound hlocate
        have hmake : t.makeFolder (folder.join name)
            = t.add place (.text name) (.folder folderMode) := by
          rw [makeFolder, hlocate]
        -- The name is free: the permissions of the folder decide.
        cases hm : t.mayChange place with
        | true =>
          rw [add, hm, if_pos rfl] at hmake
          exact Or.inr ⟨hspot, makeFoldersBelow_of_ok hmake _⟩
        | false =>
          rw [add, hm, if_neg Bool.false_ne_true] at hmake
          exact Or.inl ⟨_, makeFoldersBelow_of_error hmake (by decide) hnot _⟩
      · cases hfollows
      · cases heq

/-- **Setting permissions keeps a tree sound.** -/
theorem sound_setMode {t t' : Tree} (hs : t.Sound) {p : Path} {mode : Nat}
    (hok : t.setMode p mode = .ok t') : t'.Sound := by
  have hput : ∀ {place : Place} {o o' : Object}, t.at? place = some o →
      (o.isFolder = true → o'.isFolder = true) → (t.put place o').Sound := by
    intro place o o' ho hkeep
    refine hs.put (hs.legal_of_at? ho) (hs.housed place o ho) fun mode' h => hkeep ?_
    rw [ho] at h
    cases h
    rfl
  rw [setMode, Tree.find] at hok
  cases hlocate : t.locate .target p with
  | error fault =>
    rw [hlocate] at hok
    cases hok
  | ok spot =>
    have hspot := locate_hasSpot hs hlocate
    rw [hlocate] at hok
    cases spot with
    | vacant place name => cases hok
    | taken place o =>
      cases o with
      | file f =>
        cases hok
        exact hput hspot id
      | folder mode' =>
        cases hok
        exact hput hspot id
      | link target =>
        cases hok
        exact hput hspot fun h => rfl

end Files.Tree

namespace Files.Medium

open Files.Tree

variable {t : Tree} (m : Medium)

/-- **Folders are made as the tree makes them,** or none at all. -/
theorem makeFolders_cases (t : Tree) (p : Path) :
    (∃ cause, m.makeFolders t p = (.error (.system cause), t)) ∨
      m.makeFolders t p = t.makeFolders p := by
  rw [makeFolders]
  split
  · exact Or.inr rfl
  · exact Or.inl ⟨_, rfl⟩

/-- A folder that was made on some medium is one that the tree makes. -/
theorem makeFolders_eq_ok {t' : Tree} {p : Path} (h : m.makeFolders t p = (.ok (), t')) :
    t.makeFolders p = (.ok (), t') := by
  rcases m.makeFolders_cases t p with ⟨cause, hrefused⟩ | hmade
  · cases hrefused.symm.trans h
  · exact hmade.symm.trans h

/-- Making folders keeps a tree sound on any medium. -/
theorem sound_makeFolders (hs : t.Sound) (p : Path) : (m.makeFolders t p).2.Sound := by
  rcases m.makeFolders_cases t p with ⟨cause, hrefused⟩ | hmade
  · rw [hrefused]
    exact hs
  · rw [hmade]
    exact sound_makeFoldersBelow hs _ _

/-- In a folder that is there, one folder is made or none. -/
theorem makeFolders_join {folder : Path} {place : Place} {mode : Nat}
    (h : t.Leads folder place mode) {name : String} (hn : Path.IsStep name)
    (hnot : t.isFolder (folder.join name) = false) :
    (∃ fault, m.makeFolders t (folder.join name) = (.error fault, t)) ∨
      (t.HasSpot (.vacant place name) ∧ m.makeFolders t (folder.join name)
        = (.ok (), t.put (place ++ [.text name]) (.folder folderMode))) := by
  rcases m.makeFolders_cases t (folder.join name) with ⟨cause, hrefused⟩ | hmade
  · exact Or.inl ⟨_, hrefused⟩
  · rw [hmade]
    exact Tree.makeFolders_join h hn hnot

end Files.Medium

namespace Store

open Files (Tree Place File Object Medium)

/-- **Making sure of a folder keeps a tree sound.** -/
theorem sound_ensureFolder (s : Store) (p : Principal) {t : Tree} (hs : t.Sound)
    (medium : Medium) : (s.ensureFolder p t medium).2.Sound := by
  rw [ensureFolder]
  dsimp only
  split
  · exact hs
  · have hmade : (medium.makeFolders t (s.folder p)).2.Sound :=
      medium.sound_makeFolders hs (s.folder p)
    split
    · rename_i hmake
      rwa [hmake] at hmade
    · rename_i hmake
      rw [hmake] at hmade
      split
      · exact hmade
      · rename_i hset
        have hset' := Tree.sound_setMode hmade (Medium.eq_ok_of_allow hset)
        split
        · exact hset'
        · split
          · exact hset'
          · rename_i hroot
            exact Tree.sound_setMode hset' (Medium.eq_ok_of_allow hroot)

/-- The folder that was made sure of is the principal's. -/
theorem ensureFolder_eq_ok {s : Store} {p : Principal} {t t' : Tree} {medium : Medium}
    {folder : Path} (h : s.ensureFolder p t medium = (.ok folder, t')) : folder = s.folder p := by
  rw [ensureFolder] at h
  dsimp only at h
  split at h
  · cases h
    rfl
  · split at h
    · cases h
    · split at h
      · cases h
      · split at h
        · cases h
          rfl
        · split at h
          · cases h
          · cases h
            rfl

/-- **A folder that could be made sure of on some medium** is made sure of in the same way on one
that refuses nothing. -/
theorem ensureFolder_intact {s : Store} {p : Principal} {t t' : Tree} {medium : Medium}
    {folder : Path} (h : s.ensureFolder p t medium = (.ok folder, t')) :
    s.ensureFolder p t = (.ok folder, t') := by
  unfold ensureFolder at h ⊢
  dsimp only at h ⊢
  split at h
  · rename_i hfolder
    rw [if_pos hfolder]
    exact h
  · rename_i hnot
    rw [if_neg hnot, Medium.makeFolders_intact]
    split at h
    · cases h
    · rename_i hmake
      rw [medium.makeFolders_eq_ok hmake]
      dsimp only
      split at h
      · cases h
      · rename_i hset
        rw [Medium.setMode, Medium.allow_intact, Medium.eq_ok_of_allow hset]
        dsimp only
        split at h
        · rename_i hroot
          rw [if_pos hroot]
          exact h
        · rename_i hroot
          rw [if_neg hroot, Medium.setMode, Medium.allow_intact]
          split at h
          · cases h
          · rename_i hset'
            rw [Medium.eq_ok_of_allow hset']
            exact h

/-- **Making sure of a folder in the job root** makes that folder, if nothing has its name, and
nothing else. -/
theorem grows_ensureFolder (s : Store) (p : Principal) {t : Tree} {root : Place} {mode : Nat}
    (hroot : t.Leads s.root root mode) (medium : Medium) :
    Tree.Grows (· = root ++ [.text p.name]) t (s.ensureFolder p t medium).2 := by
  rw [ensureFolder, hroot.isFolder]
  dsimp only
  split
  · exact Tree.Grows.refl _ hroot.sound
  · rename_i hnot
    rw [Bool.not_eq_true] at hnot
    -- From here on either nothing was made, or the one folder was, whatever fails later.
    rcases medium.makeFolders_join hroot p.isStep hnot with ⟨fault, hmade⟩ | ⟨hspot, hmade⟩
    · rw [folder, hmade]
      exact Tree.Grows.refl _ hroot.sound
    · obtain ⟨-, hnone, -⟩ := id hspot
      let made := t.put (root ++ [.text p.name]) (.folder Files.folderMode)
      have hgrows : Tree.Grows (· = root ++ [.text p.name]) t made :=
        (Tree.Grows.refl (· = root ++ [.text p.name]) hroot.sound).put rfl hnone
          (Tree.sound_put_vacant hroot.sound hspot _)
      have hself : made.at? (root ++ [.text p.name]) = some (.folder Files.folderMode) :=
        Tree.at?_put_self (by simp)
      rw [folder, hmade]
      dsimp only
      split
      · exact hgrows
      · rename_i t₂ hallowed
        have hset := Medium.eq_ok_of_allow hallowed
        have hset₂ :=
          (hroot.of_keeps hgrows.sound hgrows.keeps).setMode_folder_eq_ok p.isStep hself hset
        have hset₂Sound := Tree.sound_setMode hgrows.sound hset
        subst hset₂
        rw [if_pos rfl]
        exact hgrows.put rfl hnone hset₂Sound

/-! ### Filling a file -/

section Filling

variable {t t' : Tree} {folder : Path} {place : Place} {mode : Nat} {name : String}
  {now : Instant} {medium : Medium}

/-- A folder is still there when a file in it was filled. -/
theorem leads_of_fills (h : t.Leads folder place mode)
    (hfree : t.FileOrFree (place ++ [.text name]))
    (hfills : Tree.Fills (place ++ [.text name]) t t') : t'.Leads folder place mode := by
  have hspares : Tree.Spares (fun _ => False) t t' := hfills.spares hfree id
  exact h.of_keeps hfills.sound hspares.keeps

/-- Writing to a file fills its place. -/
theorem fills_write (h : t.Leads folder place mode) (hn : Path.IsStep name)
    (hfree : t.FileOrFree (place ++ [.text name])) {content : ByteArray}
    (hok : t.write (folder.join name) content now = .ok t') :
    Tree.Fills (place ++ [.text name]) t t' := by
  obtain ⟨-, -, hlegal, fileMode', rfl, -⟩ := h.write_eq_ok hn hfree hok
  exact Tree.fills_put h.sound h.at? hlegal hfree _

/-- Setting the permissions of a file fills its place. -/
theorem fills_setMode (h : t.Leads folder place mode) (hn : Path.IsStep name)
    (hfile : ∃ f, t.fileAt? place name = some f) {fileMode' : Nat}
    (hok : t.setMode (folder.join name) fileMode' = .ok t') :
    Tree.Fills (place ++ [.text name]) t t' := by
  obtain ⟨f, hf⟩ := hfile
  have hat := Tree.fileAt?_eq_some_iff.1 hf
  rw [h.setMode_eq_ok hn hf hok]
  exact Tree.fills_put h.sound h.at? (h.sound.isLegal hat) (Tree.fileOrFree_of_fileAt? hf) _

/-- Where a place was filled there is a file. -/
theorem exists_fileAt?_of_fills (h : Tree.Fills (place ++ [.text name]) t t') :
    ∃ f, t'.fileAt? place name = some f := by
  obtain ⟨f, hf⟩ := h.file
  exact ⟨f, Tree.fileAt?_eq_some_iff.2 hf⟩

/-- Permissions are set as the tree sets them. -/
theorem setMode_eq_ok_of_publish {path : Path} (hok : publish path t medium = .ok t') :
    t.setMode path inputMode = .ok t' := by
  rw [publish] at hok
  cases hset : medium.setMode t path inputMode with
  | error fault =>
    rw [hset] at hok
    cases hok
  | ok t₁ =>
    rw [hset] at hok
    cases hok
    exact Medium.eq_ok_of_allow hset

/-- Setting the permissions of an input fills its place, on any medium. -/
theorem fills_publish (h : t.Leads folder place mode) (hn : Path.IsStep name)
    (hfile : ∃ f, t.fileAt? place name = some f)
    (hok : publish (folder.join name) t medium = .ok t') :
    Tree.Fills (place ++ [.text name]) t t' :=
  fills_setMode h hn hfile (setMode_eq_ok_of_publish hok)

/-- **Writing an input fills its file,** and changes nothing else. -/
theorem fills_writeInput (h : t.Leads folder place mode) (hn : Path.IsStep name)
    (hfree : t.FileOrFree (place ++ [.text name])) {content : ByteArray}
    (hok : writeInput (folder.join name) content now t medium = .ok t') :
    Tree.Fills (place ++ [.text name]) t t' := by
  rw [writeInput] at hok
  split at hok
  · cases hok
  · rename_i t₁ hwrite
    have hfirst := fills_write h hn hfree (Medium.eq_ok_of_allow hwrite)
    exact hfirst.trans
      (fills_publish (leads_of_fills h hfree hfirst) hn (exists_fileAt?_of_fills hfirst) hok)

/-- **Copying a file over an input fills the input,** and changes nothing else. -/
theorem fills_copyInput (h : t.Leads folder place mode) (hn : Path.IsStep name)
    (hfile : ∃ f, t.fileAt? place name = some f) {source : Path}
    (hok : copyInput source (folder.join name) now t medium = .ok t') :
    Tree.Fills (place ++ [.text name]) t t' := by
  obtain ⟨f, hf⟩ := hfile
  have hfree := Tree.fileOrFree_of_fileAt? hf
  rw [copyInput] at hok
  split at hok
  · cases hok
  · rename_i copied hallowed
    -- Copying is three changes of one file: it is emptied, written, and given its permissions.
    have hcopied : Tree.Fills (place ++ [.text name]) t copied := by
      have hcopy := Medium.eq_ok_of_allow hallowed
      rw [Tree.copy] at hcopy
      split at hcopy
      · cases hcopy
      · split at hcopy
        · cases hcopy
        · rename_i t₁ hempty
          have hfirst := fills_write h hn hfree hempty
          obtain ⟨f₁, hf₁⟩ := exists_fileAt?_of_fills hfirst
          have h₁ := leads_of_fills h hfree hfirst
          have hfree₁ := Tree.fileOrFree_of_fileAt? hf₁
          split at hcopy
          · cases hcopy
          · split at hcopy
            · cases hcopy
            · rename_i t₂ hwrite
              have hsecond := fills_write h₁ hn hfree₁ hwrite
              have h₂ := leads_of_fills h₁ hfree₁ hsecond
              exact (hfirst.trans hsecond).trans
                (fills_setMode h₂ hn (exists_fileAt?_of_fills hsecond) hcopy)
      · cases hcopy
    exact hcopied.trans
      (fills_publish (leads_of_fills h hfree hcopied) hn (exists_fileAt?_of_fills hcopied) hok)

/-- **Writing that is broken off** leaves another file where there was one, or nothing new. -/
theorem breakOff_cases (h : t.Leads folder place mode) (hn : Path.IsStep name)
    (hfree : t.FileOrFree (place ++ [.text name])) (medium : Medium) :
    medium.breakOff t (folder.join name) = t ∨ ∃ f f', t.fileAt? place name = some f ∧
      medium.breakOff t (folder.join name) = t.put (place ++ [.text name]) (.file f') := by
  have hlink : ∀ target, t.at? (place ++ [.text name]) ≠ some (.link target) := by
    intro target htarget
    obtain ⟨f, hf⟩ := hfree _ htarget
    cases hf
  rw [Medium.breakOff]
  split
  · rename_i f' place' f _ hfind
    obtain ⟨rfl, hat⟩ := h.eq_of_find hn hlink hfind
    exact Or.inr ⟨f, f', Tree.fileAt?_eq_some_iff.2 hat, rfl⟩
  · exact Or.inl rfl

/-- Writing that is broken off fills the place of the file. -/
theorem fills_breakOff (h : t.Leads folder place mode) (hn : Path.IsStep name)
    (hfile : ∃ f, t.fileAt? place name = some f) (medium : Medium) :
    Tree.Fills (place ++ [.text name]) t (medium.breakOff t (folder.join name)) := by
  obtain ⟨f, hf⟩ := hfile
  have hat := Tree.fileAt?_eq_some_iff.1 hf
  have hfree := Tree.fileOrFree_of_fileAt? hf
  rcases breakOff_cases h hn hfree medium with hsame | ⟨-, f', -, hleft⟩
  · rw [hsame]
    exact .refl h.sound hat
  · rw [hleft]
    exact Tree.fills_put h.sound h.at? (h.sound.isLegal hat) hfree f'

end Filling

end Store

namespace Spool

open Files (Tree Place File Object Medium)

/-! ### Storing an input -/

/-- Does a way to fill an input only fill it? -/
def FillsInput (folder : Path) (write : Path → Tree → Except StorageError Tree) : Prop :=
  ∀ {t t' : Tree} {place : Place} {mode : Nat} {name : String}, t.Leads folder place mode →
    Path.IsStep name → (∃ f, t.fileAt? place name = some f) →
      write (folder.join name) t = .ok t' → Tree.Fills (place ++ [.text name]) t t'

section Storing

variable {t t' : Tree} {folder : Path} {place : Place} {mode : Nat} {name : String}
  {write : Path → Tree → Except StorageError Tree} {medium : Medium}

/-- A file that cannot be removed is missing, or its removal fails. -/
theorem remove_of_error {p : Path} {fault : Files.Fault} (h : t.remove p = .error fault) :
    Store.remove p t = .ok (false, t) ∨ ∃ cause, Store.remove p t = .error cause := by
  rw [Store.remove, h]
  split
  · rename_i hok
    cases hok
  · exact Or.inl rfl
  · exact Or.inr ⟨_, rfl⟩

/-- **An input is filled, or it cannot be.**  Then it is dropped again, unless that is refused, too:
by the medium, or for what was left of the input. -/
theorem fill_cases (input : Path) (write : Path → Tree → Except StorageError Tree) (t : Tree)
    (medium : Medium) :
    (∃ t', write input t = .ok t' ∧ fill input write t medium = (.ok (), t')) ∨
    (∃ cause, fill input write t medium = (.error cause, medium.breakOff t input) ∧
      ((medium.refusal? .remove input).isSome = true ∨
        ∃ fault, (medium.breakOff t input).remove input = .error fault)) ∨
    ∃ cause t', (medium.breakOff t input).remove input = .ok t' ∧
      fill input write t medium = (.error cause, t') := by
  rw [fill]
  cases write input t with
  | ok t' => exact Or.inl ⟨t', rfl, rfl⟩
  | error cause =>
    refine Or.inr ?_
    dsimp only
    cases medium.refusal? .remove input with
    | some refused => exact Or.inl ⟨cause, rfl, Or.inl rfl⟩
    | none =>
      cases hremove : (medium.breakOff t input).remove input with
      | ok t' =>
        refine Or.inr ⟨cause, t', rfl, ?_⟩
        rw [Store.remove, hremove]
      | error fault =>
        refine Or.inl ⟨cause, ?_, Or.inr ⟨fault, rfl⟩⟩
        rcases remove_of_error hremove with hgone | ⟨cause', hfailed⟩
        · rw [hgone]
        · rw [hfailed]

/-- An input was filled if it was written. -/
theorem write_eq_ok_of_fill {input : Path} (hfill : fill input write t medium = (.ok (), t')) :
    write input t = .ok t' := by
  rcases fill_cases input write t medium with
    ⟨t₁, hwrite, heq⟩ | ⟨cause, heq, -⟩ | ⟨cause, t₁, -, heq⟩
  · cases heq.symm.trans hfill
    exact hwrite
  · cases heq.symm.trans hfill
  · cases heq.symm.trans hfill

/-- **Filling an input changes nothing else,** when it succeeds. -/
theorem fill_eq_ok (h : t.Leads folder place mode) (hn : Path.IsStep name)
    (hfile : ∃ f, t.fileAt? place name = some f) (hwrite : FillsInput folder write)
    (hok : fill (folder.join name) write t medium = (.ok (), t')) :
    Tree.Fills (place ++ [.text name]) t t' :=
  hwrite h hn hfile (write_eq_ok_of_fill hok)

/-- **Filling an input changes nothing else,** be it that the input is dropped again. -/
theorem spares_fill {guarded : Place → Prop} (h : t.Leads folder place mode)
    (hn : Path.IsStep name) (hfile : ∃ f, t.fileAt? place name = some f)
    (hwrite : FillsInput folder write) (hguarded : ¬ guarded (place ++ [.text name]))
    (medium : Medium) : Tree.Spares guarded t (fill (folder.join name) write t medium).2 := by
  obtain ⟨f, hf⟩ := hfile
  have hfree := Tree.fileOrFree_of_fileAt? hf
  have hbroken := Store.fills_breakOff h hn ⟨f, hf⟩ medium
  have hspares : Tree.Spares guarded t _ := hbroken.spares hfree hguarded
  rcases fill_cases (folder.join name) write t medium with
    ⟨t₁, hw, heq⟩ | ⟨cause, heq, -⟩ | ⟨cause, t₁, hremove, heq⟩
  · rw [heq]
    exact (hwrite h hn ⟨f, hf⟩ hw).spares hfree hguarded
  · rw [heq]
    exact hspares
  · rw [heq]
    obtain ⟨f', hf'⟩ := Store.exists_fileAt?_of_fills hbroken
    have hl := Store.leads_of_fills h hfree hbroken
    obtain ⟨-, rfl⟩ := hl.remove_eq_ok hn (Tree.fileOrFree_of_fileAt? hf') hremove
    refine hspares.trans (Tree.spares_without hl.sound ?_ ?_)
    · intro p hp
      rw [List.mem_singleton.1 hp]
      exact ⟨f', Tree.fileAt?_eq_some_iff.1 hf'⟩
    · intro p hp
      rwa [List.mem_singleton.1 hp]

/-- Does a way to create an input make a new file, under a word that was chosen? -/
def CreatesInput (folder : Path) (now : Instant) (Chosen : Tree → String → Prop)
    (create : Path → Tree → Except StorageError (Path × Tree)) : Prop :=
  ∀ {t t' : Tree} {input : Path}, create folder t = .ok (input, t') →
    ∃ name, IsWord name ∧ Chosen t name ∧ input = folder.join name ∧
      t.create (folder.join name) now = .ok t'

/-- Was an input created in a folder, and filled, with nothing else changed? -/
structure Stored (folder : Path) (t t' : Tree) (place : Place) (mode : Nat) (name : String) :
    Prop where
  word : IsWord name
  leads : t.Leads folder place mode
  change : t.mayChange place = true
  free : t.at? (place ++ [.text name]) = none
  legal : (Files.Name.text name).IsLegal
  accepted : Tree.refusal? (folder.join name) = none
  fills : Tree.Fills (place ++ [.text name]) t t'

/-- The folder is still there. -/
theorem Stored.leads_after {folder : Path} {t t' : Tree} {place : Place} {mode : Nat}
    {name : String} (h : Stored folder t t' place mode name) : t'.Leads folder place mode :=
  Store.leads_of_fills h.leads (Tree.fileOrFree_of_at? h.free) h.fills

/-- The folder of a principal has a path that is not empty. -/
theorem text_folder_ne_nil (c : Config) (p : Principal) :
    (c.store.folder p).text.toList ≠ [] := by
  have hne := p.isStep.ne_nil
  by_cases hroot : c.store.root.text.toList = []
  · have hempty : c.store.root.text = "" := String.toList_eq_nil_iff.1 hroot
    simpa [Store.folder, Path.join, hempty] using hne
  · obtain ⟨slash, htext⟩ := Path.text_join hroot p.isStep
    rw [Store.folder, htext]
    simp [hne]

variable {c : Config} {p : Principal} {now : Instant} {Chosen : Tree → String → Prop}
  {create : Path → Tree → Except StorageError (Path × Tree)}

/-- May an empty file be created in a folder, under a word? -/
structure Vacancy (folder : Path) (t : Tree) (place : Place) (mode : Nat) (name : String) :
    Prop where
  word : IsWord name
  leads : t.Leads folder place mode
  change : t.mayChange place = true
  free : t.at? (place ++ [.text name]) = none
  legal : (Files.Name.text name).IsLegal
  accepted : Tree.refusal? (folder.join name) = none

namespace Vacancy

/-- The empty file. -/
def fresh (now : Instant) : File :=
  ⟨ByteArray.empty, Files.fileMode, now⟩

variable {folder : Path}

/-- Creating a file where a name was vacant fills that place. -/
theorem fills (h : Vacancy folder t place mode name) (now : Instant) :
    Tree.Fills (place ++ [.text name]) t (t.put (place ++ [.text name]) (.file (fresh now))) :=
  Tree.fills_put h.leads.sound h.leads.at? h.legal (Tree.fileOrFree_of_at? h.free) (fresh now)

/-- A new file does not change where the path of its folder leads. -/
theorem leads_put (h : Vacancy folder t place mode name) (now : Instant) :
    (t.put (place ++ [.text name]) (.file (fresh now))).Leads folder place mode :=
  Store.leads_of_fills h.leads (Tree.fileOrFree_of_at? h.free) (h.fills now)

end Vacancy

/-- **Storing an input makes sure of the folder,** and fails there, or goes on to fill an input
that it has created in it. -/
theorem storeInput_eq (hs : t.Sound) (hcreate : CreatesInput (c.store.folder p) now Chosen create)
    (write : Path → Tree → Except StorageError Tree) (medium : Medium) :
    (∃ cause, storeInput c p create write t medium
      = (.error cause, (c.store.ensureFolder p t medium).2)) ∨
    ∃ place mode name, Chosen (c.store.ensureFolder p t medium).2 name ∧
      Vacancy (c.store.folder p) (c.store.ensureFolder p t medium).2 place mode name ∧
      ∀ answer t', fill ((c.store.folder p).join name) write
          ((c.store.ensureFolder p t medium).2.put (place ++ [.text name])
            (.file (Vacancy.fresh now))) medium = (answer, t') →
        storeInput c p create write t medium =
          (answer.map fun _ => (c.store.folder p, (c.store.folder p).join name), t') := by
  have hsound := c.store.sound_ensureFolder p hs medium
  unfold storeInput
  cases hensure : c.store.ensureFolder p t medium with
  | mk answer t₁ =>
    rw [hensure] at hsound
    cases answer with
    | error cause => exact Or.inl ⟨cause, rfl⟩
    | ok folder =>
      obtain rfl := Store.ensureFolder_eq_ok hensure
      dsimp only
      cases hmake : create (c.store.folder p) t₁ with
      | error cause => exact Or.inl ⟨cause, rfl⟩
      | ok made =>
        -- What `create` has made is an empty file where the name was vacant.
        obtain ⟨name, hword, hchosen, hinput, hnew⟩ := hcreate hmake
        obtain ⟨place, mode, hl, hm, hnone, hlegal, hr, hput⟩ :=
          Tree.create_eq_ok hsound (text_folder_ne_nil c p) hword.isStep hnew
        dsimp only
        cases medium.refusal? .create made.1 with
        | some cause => exact Or.inl ⟨_, rfl⟩
        | none =>
          refine Or.inr ⟨place, mode, name, hchosen, ⟨hword, hl, hm, hnone, hlegal, hr⟩, ?_⟩
          intro answer t' hfill
          dsimp only
          rw [hinput, hput]
          rw [Vacancy.fresh] at hfill
          rw [hfill]
          cases answer with
          | error cause => rfl
          | ok done => rfl

/-- **What storing an input has done** once the folder was there. -/
theorem storeInput_eq_ok (hs : t.Sound) {input : Path}
    (hcreate : CreatesInput (c.store.folder p) now Chosen create)
    (hwrite : FillsInput (c.store.folder p) write)
    (hok : storeInput c p create write t medium = (.ok (folder, input), t')) :
    folder = c.store.folder p ∧ ∃ t₁ place mode name, Chosen t₁ name ∧
      input = folder.join name ∧ Stored folder t₁ t' place mode name := by
  rcases storeInput_eq hs hcreate write medium with
    ⟨cause, heq⟩ | ⟨place, mode, name, hchosen, hv, heq⟩
  · rw [heq] at hok
    cases hok
  · cases hfill : fill ((c.store.folder p).join name) write _ medium with
    | mk answer t₃ =>
      rw [heq answer t₃ hfill] at hok
      cases answer with
      | error cause => cases hok
      | ok done =>
        cases hok
        have hfilled := fill_eq_ok (hv.leads_put now) hv.word.isStep
          (Store.exists_fileAt?_of_fills (hv.fills now)) hwrite hfill
        exact ⟨rfl, _, place, mode, name, hchosen, rfl, hv.word, hv.leads, hv.change, hv.free,
          hv.legal, hv.accepted, (hv.fills now).trans hfilled⟩

/-- **Once the folder was made sure of,** storing an input changes nothing that is guarded, whether
it succeeds or not: when no name that may be chosen is guarded. -/
theorem spares_of_ensureFolder {guarded : Place → Prop} (hs : t.Sound)
    (hcreate : CreatesInput (c.store.folder p) now Chosen create)
    (hwrite : FillsInput (c.store.folder p) write)
    (hchosen : ∀ place mode name,
      (c.store.ensureFolder p t medium).2.Leads (c.store.folder p) place mode → IsWord name →
        Chosen (c.store.ensureFolder p t medium).2 name → ¬ guarded (place ++ [.text name])) :
    Tree.Spares guarded (c.store.ensureFolder p t medium).2
      (storeInput c p create write t medium).2 := by
  rcases storeInput_eq hs hcreate write medium with
    ⟨cause, heq⟩ | ⟨place, mode, name, hname, hv, heq⟩
  · rw [heq]
    exact Tree.Spares.refl guarded (c.store.sound_ensureFolder p hs medium)
  · have hnot := hchosen place mode name hv.leads hv.word hname
    have hsecond := (hv.fills now).spares (Tree.fileOrFree_of_at? hv.free) hnot
    have hthird := hsecond.trans (spares_fill (hv.leads_put now) hv.word.isStep
      (Store.exists_fileAt?_of_fills (hv.fills now)) hwrite hnot medium)
    rw [heq _ _ rfl]
    exact hthird

end Storing

end Spool
end JobSpool
