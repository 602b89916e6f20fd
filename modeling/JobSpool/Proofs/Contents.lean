/-
# Trees that only get more

Making folders, giving them permissions and creating files take nothing away: links stay as they
are, a folder that could be searched still can be, and a file keeps its content.  A tree after
such calls extends the tree before them (`Tree.Extends`), and whatever a path led to before is
what it leads to afterwards (`find_extends`).  The same induction over a walk says that a path
whose last link is followed never ends at a link.

Making sure of a folder extends a tree by folders alone (`Store.sameContents_ensureFolder`): every
file that there is has been there before, with the same content.  So an upload that was looked at
before its input was made is still there when it is copied, and what is copied is what was looked
at (`Store.filled_copyInput`).
-/

import JobSpool.Proofs.Submissions

namespace JobSpool

namespace Files

namespace Object

/-- What a file holds. -/
def content? : Object → Option ByteArray
  | file f => some f.content
  | _ => none

/-- What an object may become while nothing is lost. -/
inductive StaysAs : Object → Object → Prop
  | file {f f' : File} (h : f'.content = f.content) : StaysAs (.file f) (.file f')
  | folder {mode mode' : Nat}
    (h : (Object.folder mode).maySearch = true → (Object.folder mode').maySearch = true) :
    StaysAs (.folder mode) (.folder mode')
  | link (target : Path) : StaysAs (.link target) (.link target)

/-- Nothing has changed about an object that is the same. -/
theorem StaysAs.refl (o : Object) : o.StaysAs o := by
  cases o with
  | file f => exact .file rfl
  | folder mode => exact .folder id
  | link target => exact .link target

/-- What stays as it is over two steps stays so over both. -/
theorem StaysAs.trans {o o' o'' : Object} (h : o.StaysAs o') (h' : o'.StaysAs o'') :
    o.StaysAs o'' := by
  cases h with
  | file h =>
    cases h' with
    | file h' => exact .file (h'.trans h)
  | folder h =>
    cases h' with
    | folder h' => exact .folder (h' ∘ h)
  | link target => exact h'

/-- An object that stays as it is keeps its content. -/
theorem StaysAs.content?_eq {o o' : Object} (h : o.StaysAs o') : o'.content? = o.content? := by
  cases h with
  | file h => exact congrArg some h
  | folder h => rfl
  | link target => rfl

end Object

namespace Tree

/-- The content of the file at a place, if a file stands there. -/
def contentAt? (t : Tree) (place : Place) : Option ByteArray :=
  (t.at? place).bind Object.content?

/-- What is read at the place of a file is its content. -/
theorem contentAt?_of_at? {t : Tree} {place : Place} {f : File}
    (h : t.at? place = some (.file f)) : t.contentAt? place = some f.content := by
  rw [contentAt?, h]
  rfl

/-- The content of a place depends on what stands there. -/
theorem contentAt?_congr {t t' : Tree} {place : Place} (h : t'.at? place = t.at? place) :
    t'.contentAt? place = t.contentAt? place := by
  rw [contentAt?, h, contentAt?]

/-- Is everything in a tree still there in another one? -/
structure Extends (t t' : Tree) : Prop where
  home : t'.home = t.home
  stays : ∀ place o, t.at? place = some o → ∃ o', t'.at? place = some o' ∧ o.StaysAs o'

/-- Are moreover the files the same, with the same content? -/
structure SameContents (t t' : Tree) : Prop extends t.Extends t' where
  contents : ∀ place, t'.contentAt? place = t.contentAt? place

section Walk

variable {t t' : Tree} {slash : Bool} {goal : Place} {o : Object}

/-- What steps lead to in a tree, they lead to in one that extends it, and it is no link.  `jump`
and `jump'` go on from a link. -/
theorem walkWith_extends {jump jump' : Place → Path → List Path.Step → Except OsError Spot}
    (hs : t.Sound) (he : t.Extends t')
    (hjump : ∀ here target steps mode, t.at? here = some (.folder mode) →
      jump here target steps = .ok (.taken goal o) → (∀ target, o ≠ .link target) ∧
        ∃ o', jump' here target steps = .ok (.taken goal o') ∧ o.StaysAs o')
    {steps : List Path.Step} {here : Place} {mode : Nat}
    (hhere : t.at? here = some (.folder mode))
    (h : walkWith jump t .target slash here steps = .ok (.taken goal o)) :
    (∀ target, o ≠ .link target) ∧
      ∃ o', walkWith jump' t' .target slash here steps = .ok (.taken goal o') ∧ o.StaysAs o' := by
  -- The induction is on the steps; what may be searched in the one tree may be in the other.
  induction steps generalizing here mode with
  | nil =>
    rw [walkWith, hhere] at h
    cases h
    obtain ⟨o', ho', hstays⟩ := he.stays _ _ hhere
    refine ⟨fun target hlink => ?_, o', ?_, hstays⟩
    · cases hlink
    · rw [walkWith, ho']
  | cons step steps ih =>
    have hsearch := maySearch_of_walkWith h
    have hsearch' : t'.maySearch here = true := by
      obtain ⟨o', ho', hstays⟩ := he.stays _ _ hhere
      rw [maySearch, hhere] at hsearch
      cases hstays with
      | folder hmay =>
        rw [maySearch, ho']
        exact hmay hsearch
    cases step with
    | stay =>
      rw [walkWith, if_pos hsearch] at h
      rw [walkWith, if_pos hsearch']
      exact ih hhere h
    | up =>
      rw [walkWith, if_pos hsearch] at h
      rw [walkWith, if_pos hsearch']
      obtain ⟨mode', habove⟩ := hs.housed here _ hhere
      exact ih habove h
    | down name =>
      simp only [walkWith, hsearch, Aim.opens, Aim.follows, Bool.not_true, Bool.and_false,
        Bool.and_true, Bool.false_eq_true, if_false] at h
      simp only [walkWith, hsearch', Aim.opens, Aim.follows, Bool.not_true, Bool.and_false,
        Bool.and_true, Bool.false_eq_true, if_false]
      split at h
      · cases h
      · rename_i hlength
        rw [if_neg hlength]
        cases hat : t.at? (here ++ [.text name]) with
        | none =>
          rw [hat] at h
          dsimp only at h
          split at h <;> cases h
        | some next =>
          rw [hat] at h
          obtain ⟨next', hat', hstays⟩ := he.stays _ _ hat
          rw [hat']
          -- What stands under the name is of the same kind in both trees.
          cases hstays with
          | file hcontent =>
            dsimp only at h ⊢
            split at h
            · rename_i hend
              cases h
              rw [if_pos hend]
              refine ⟨fun target hlink => ?_, _, rfl, .file hcontent⟩
              cases hlink
            · cases h
          | folder hmay => exact ih hat h
          | link target => exact hjump here target steps mode hhere h

/-- **What a walk leads to, it leads to in a tree that extends this one,** and it is no link. -/
theorem walk_extends (hs : t.Sound) (he : t.Extends t') {links : Nat} {steps : List Path.Step}
    {here : Place} {mode : Nat} (hhere : t.at? here = some (.folder mode))
    (h : t.walk .target links slash here steps = .ok (.taken goal o)) :
    (∀ target, o ≠ .link target) ∧
      ∃ o', t'.walk .target links slash here steps = .ok (.taken goal o') ∧ o.StaysAs o' := by
  induction links generalizing slash here steps mode with
  | zero =>
    rw [walk] at h
    rw [walk]
    refine walkWith_extends hs he ?_ hhere h
    intro here target steps mode _ hjump
    cases hjump
  | succ links ih =>
    rw [walk] at h
    rw [walk]
    refine walkWith_extends hs he ?_ hhere h
    intro here target steps mode hfolder hjump
    obtain ⟨mode', hstart⟩ := exists_folder_start hfolder target.isAbsolute
    exact ih hstart hjump

end Walk

variable {t t' t'' : Tree}

/-- A path that leads somewhere leads there in every extension, and not to a link. -/
theorem find_extends (hs : t.Sound) (he : t.Extends t') {p : Path} {place : Place} {o : Object}
    (h : t.find p = .ok (place, o)) : (∀ target, o ≠ .link target) ∧
      ∃ o', t'.find p = .ok (place, o') ∧ o.StaysAs o' := by
  obtain ⟨hr, hwalk⟩ := find_eq_ok_iff.1 h
  obtain ⟨mode, hstart⟩ := hs.exists_folder_start p
  obtain ⟨hlink, o', hwalk', hstays⟩ := walk_extends hs he hstart hwalk
  refine ⟨hlink, o', find_eq_ok_iff.2 ⟨hr, ?_⟩, hstays⟩
  rw [start, he.home]
  exact hwalk'

/-- **A file is read in a tree that extends this one** as it is here. -/
theorem content_of_read (hs : t.Sound) (he : t.Extends t') {p : Path} {f : File}
    (hf : t.file? p = some f) {content : ByteArray} (hok : t'.read p = .ok content) :
    content = f.content := by
  unfold file? at hf
  split at hf
  · rename_i hfind
    cases hf
    obtain ⟨-, o', hfind', hstays⟩ := find_extends hs he hfind
    cases hstays with
    | file hcontent =>
      obtain ⟨place', f', hfile, -, rfl⟩ := read_eq_ok_iff.1 hok
      cases hfind'.symm.trans hfile
      exact hcontent
  · cases hf

/-- What a path leads to is what stands at the place. -/
theorem at?_of_find (hs : t.Sound) {p : Path} {place : Place} {o : Object}
    (h : t.find p = .ok (place, o)) : t.at? place = some o :=
  locate_hasSpot hs (locate_of_find h)

namespace Extends

/-- A tree extends itself. -/
theorem refl (t : Tree) : t.Extends t :=
  ⟨rfl, fun _ o ho => ⟨o, ho, .refl o⟩⟩

/-- An extension of an extension is one. -/
theorem trans (h : t.Extends t') (h' : t'.Extends t'') : t.Extends t'' := by
  refine ⟨h'.home.trans h.home, fun place o ho => ?_⟩
  obtain ⟨o', ho', hstays⟩ := h.stays place o ho
  obtain ⟨o'', ho'', hstays'⟩ := h'.stays place o' ho'
  exact ⟨o'', ho'', hstays.trans hstays'⟩

/-- An extension keeps the content of every file. -/
theorem contentAt? (h : t.Extends t') {place : Place} {content : ByteArray}
    (hcontent : t.contentAt? place = some content) : t'.contentAt? place = some content := by
  obtain ⟨o, ho, hholds⟩ := Option.bind_eq_some_iff.1 hcontent
  obtain ⟨o', ho', hstays⟩ := h.stays place o ho
  rw [Tree.contentAt?, ho']
  exact hstays.content?_eq.trans hholds

/-- **A file that was not there before may change at will.** -/
theorem fills (h : t.Extends t') {place : Place} (hnone : t.at? place = none)
    (hfills : Fills place t' t'') : t.Extends t'' := by
  refine ⟨hfills.home.trans h.home, fun other o ho => ?_⟩
  obtain ⟨o', ho', hstays⟩ := h.stays other o ho
  refine ⟨o', (hfills.other other ?_).trans ho', hstays⟩
  rintro rfl
  rw [hnone] at ho
  cases ho

end Extends

namespace SameContents

/-- A tree has its own contents. -/
theorem refl (t : Tree) : t.SameContents t :=
  ⟨.refl t, fun _ => rfl⟩

/-- Trees with the same contents as a third one have the same contents. -/
theorem trans (h : t.SameContents t') (h' : t'.SameContents t'') : t.SameContents t'' :=
  ⟨h.toExtends.trans h'.toExtends, fun place => (h'.contents place).trans (h.contents place)⟩

/-- An object that becomes another one of its kind. -/
theorem put {place : Place} {o o' : Object} (ho : t.at? place = some o) (h : o.StaysAs o') :
    t.SameContents (t.put place o') := by
  have hstays : ∀ other x, t.at? other = some x →
      ∃ x', (t.put place o').at? other = some x' ∧ x.StaysAs x' := by
    intro other x hx
    rw [at?_put]
    split
    · rename_i heq
      rw [heq.1, ho] at hx
      cases hx
      exact ⟨o', rfl, h⟩
    · exact ⟨x, hx, .refl x⟩
  refine ⟨⟨home_put _ _ _, hstays⟩, fun other => ?_⟩
  rw [contentAt?, contentAt?, at?_put]
  split
  · rename_i heq
    rw [heq.1, ho]
    exact h.content?_eq
  · rfl

end SameContents

end Tree

end Files

namespace Store

open Files (Tree Place File Object Medium)

/-- Does a file right in a folder have some content? -/
structure Filled (t : Tree) (folder : Path) (place : Place) (mode : Nat) (name : String)
    (content : ByteArray) : Prop where
  leads : t.Leads folder place mode
  content : t.contentAt? (place ++ [.text name]) = some content

section Filling

variable {t t' : Tree} {folder : Path} {place : Place} {mode : Nat} {name : String}
  {now : Instant} {content old : ByteArray} {medium : Medium}

/-- A filled input is a file with its content. -/
theorem Filled.exists_fileAt? (h : Filled t folder place mode name content) :
    ∃ f, t.fileAt? place name = some f ∧ f.content = content := by
  obtain ⟨o, ho, hcontent⟩ := Option.bind_eq_some_iff.1 h.content
  cases o with
  | file f => exact ⟨f, Tree.fileAt?_eq_some_iff.2 ho, Option.some.inj hcontent⟩
  | _ => cases hcontent

/-- Where an input was filled a file stands, and no folder or link. -/
theorem Filled.fileOrFree (h : Filled t folder place mode name content) :
    t.FileOrFree (place ++ [.text name]) := by
  obtain ⟨f, hf, -⟩ := h.exists_fileAt?
  exact Tree.fileOrFree_of_fileAt? hf

/-- Putting a file under a free name of a folder fills it. -/
theorem filled_put (h : t.Leads folder place mode) (hlegal : (Files.Name.text name).IsLegal)
    (hfree : t.FileOrFree (place ++ [.text name])) (f : File) :
    Filled (t.put (place ++ [.text name]) (.file f)) folder place mode name f.content :=
  ⟨leads_of_fills h hfree (Tree.fills_put h.sound h.at? hlegal hfree f),
    Tree.contentAt?_of_at? (Tree.at?_put_self (by simp))⟩

/-- Writing fills an input with what was written. -/
theorem filled_write (h : t.Leads folder place mode)
    (hfree : t.FileOrFree (place ++ [.text name])) (hn : Path.IsStep name)
    (hok : t.write (folder.join name) content now = .ok t') :
    Filled t' folder place mode name content := by
  obtain ⟨-, -, hlegal, fileMode', rfl, -⟩ := h.write_eq_ok hn hfree hok
  exact filled_put h hlegal hfree _

/-- Setting the permissions of a filled input leaves it filled. -/
theorem filled_setMode (h : Filled t folder place mode name content) (hn : Path.IsStep name)
    {fileMode' : Nat} (hok : t.setMode (folder.join name) fileMode' = .ok t') :
    Filled t' folder place mode name content := by
  obtain ⟨f, hf, rfl⟩ := h.exists_fileAt?
  have hlegal := h.leads.sound.isLegal (Tree.fileAt?_eq_some_iff.1 hf)
  rw [h.leads.setMode_eq_ok hn hf hok]
  exact filled_put h.leads hlegal h.fileOrFree { f with mode := fileMode' }

/-- Setting the permissions of a filled input leaves it filled, on any medium. -/
theorem filled_publish (h : Filled t folder place mode name content) (hn : Path.IsStep name)
    (hok : publish (folder.join name) t medium = .ok t') :
    Filled t' folder place mode name content :=
  filled_setMode h hn (setMode_eq_ok_of_publish hok)

/-- **An input that is written holds what was written,** -/
theorem filled_writeInput (h : t.Leads folder place mode)
    (hfree : t.FileOrFree (place ++ [.text name])) (hn : Path.IsStep name)
    (hok : writeInput (folder.join name) content now t medium = .ok t') :
    Filled t' folder place mode name content := by
  rw [writeInput] at hok
  split at hok
  · cases hok
  · rename_i hwrite
    exact filled_publish (filled_write h hfree hn (Medium.eq_ok_of_allow hwrite)) hn hok

/-- **and one that is copied holds what there was to copy** in a tree that did not have the input
yet. -/
theorem filled_copyInput {t₀ : Tree} (hs : t₀.Sound) {source : Path} {f₀ : File}
    (hsource : t₀.file? source = some f₀) (he : t₀.Extends t)
    (hnone : t₀.at? (place ++ [.text name]) = none)
    (h : Filled t folder place mode name old) (hn : Path.IsStep name)
    (hok : copyInput source (folder.join name) now t medium = .ok t') :
    Filled t' folder place mode name f₀.content := by
  rw [copyInput] at hok
  split at hok
  · cases hok
  · rename_i copied hallowed
    have hcopy := Medium.eq_ok_of_allow hallowed
    rw [Tree.copy] at hcopy
    split at hcopy
    · cases hcopy
    · split at hcopy
      · cases hcopy
      · rename_i t₁ hempty
        -- the input is emptied before the source is read, but it is not the source
        have hfirst := fills_write h.leads hn h.fileOrFree hempty
        have hemptied := filled_write h.leads h.fileOrFree hn hempty
        split at hcopy
        · cases hcopy
        · rename_i content hread
          split at hcopy
          · cases hcopy
          · rename_i t₂ hwrite
            have hcontent : content = f₀.content :=
              Tree.content_of_read hs (he.fills hnone hfirst) hsource hread
            rw [hcontent] at hwrite
            have hfilled := filled_write hemptied.leads hemptied.fileOrFree hn hwrite
            exact filled_publish (filled_setMode hfilled hn hcopy) hn hok
    · cases hcopy

end Filling

end Store

namespace Spool

open Files (Tree Place File Object Medium)

/-! ### What storing an input leaves -/

/-- Does a way to fill an input give it some content, in every tree that extends a sound one and
has got the input besides? -/
def GivesContent (folder : Path) (t₀ : Tree) (content : ByteArray)
    (write : Path → Tree → Except StorageError Tree) : Prop :=
  ∀ {t t' : Tree} {place : Place} {mode : Nat} {name : String} {old : ByteArray},
    t₀.Sound → t₀.Extends t → t₀.at? (place ++ [.text name]) = none →
      Store.Filled t folder place mode name old → Path.IsStep name →
        write (folder.join name) t = .ok t' → Store.Filled t' folder place mode name content

section Storing

variable {t t' : Tree} {folder : Path} {place : Place} {mode : Nat} {name : String}
  {content : ByteArray} {write : Path → Tree → Except StorageError Tree} {medium : Medium}

variable {c : Config} {p : Principal} {now : Instant} {Chosen : Tree → String → Prop}
  {create : Path → Tree → Except StorageError (Path × Tree)}

end Storing

end Spool
end JobSpool
