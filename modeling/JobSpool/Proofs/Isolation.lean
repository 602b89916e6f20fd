/-
# One principal's folder and another's

Whatever is done for a principal, the principal's folder is perhaps made sure of, and then nothing
changes but what is right in that folder (`ActsFor`).  `Untouched` says what another principal has
from it: the folder is the same folder with the same in it, and a folder that is missing is missed
as before.

For this the two folders have to be two, and no link may lead from one to the other.  `Apart` is
the invariant: it is kept by a folder that is made in the job root (`of_grows`), by a job root that
is made (`of_makesRoot`), and by what is changed in the first principal's folder (`of_spares`).
These are all steps of what is done for a principal (`Apart.actsFor`).
-/

import JobSpool.Proofs.Calls
import JobSpool.Proofs.MissingRoot
import JobSpool.Proofs.Rearrangements

namespace JobSpool

open Files (Tree Place File Object Medium)

namespace Files.Tree

variable {t t' : Tree} {folder : Path} {place : Place} {mode : Nat}

/-- When everything is spared, the same objects stand everywhere. -/
theorem Spares.sameObjects {guarded : Place → Prop} (hs : t.Sound) (h : Spares guarded t t')
    (hall : ∀ place, guarded place) : t.SameObjects t' :=
  ⟨h.keeps.home, fun place => h.same place (hall place), hs, h.sound⟩

/-- A tree that can have grown only where something stands has not grown. -/
theorem sameObjects_of_grows (hs : t.Sound) (h : Grows (· = place) t t') {o : Object}
    (ho : t.at? place = some o) : t.SameObjects t' := by
  refine ⟨h.home, fun other => ?_, hs, h.sound⟩
  rcases h.at? other with hsame | ⟨rfl, hnone, -⟩
  · exact hsame
  · rw [hnone] at ho
    cases ho

/-- Trees with the same objects lead to the same folders. -/
theorem Leads.of_sameObjects (h : t'.Leads folder place mode) (hsame : t.SameObjects t') :
    t.Leads folder place mode :=
  hsame.symm.leads h

/-- Two names in a folder are looked up alike in two trees that have the same under the first, when
that is neither a folder nor a link. -/
theorem find_join_join_congr (h : t.Leads folder place mode) (h' : t'.Leads folder place mode)
    {name more : String} (hn : Path.IsStep name) (hm : Path.IsStep more)
    (hsame : t'.at? (place ++ [.text name]) = t.at? (place ++ [.text name]))
    (hlink : ∀ target, t.at? (place ++ [.text name]) ≠ some (.link target))
    (hnot : t.isFolder (folder.join name) = false) :
    t'.find ((folder.join name).join more) = t.find ((folder.join name).join more) := by
  have hne : (folder.join name).text.toList ≠ [] := Path.text_join_ne_nil h.text_ne_nil hn
  cases hr : refusal? ((folder.join name).join more) with
  | some fault => simp [find, locate, hr]
  | none =>
    have hbelow := (Path.liesBelow_join hne hm).trans (Path.liesBelow_join h.text_ne_nil hn)
    obtain ⟨jump, hlocate⟩ := exists_locate_below h.sound h.find hbelow (by simp) hr .target
    obtain ⟨jump', hlocate'⟩ := exists_locate_below h'.sound h'.find hbelow (by simp) hr .target
    have hwalk : walkWith jump' t' .target false place ([.down name] ++ [.down more])
        = walkWith jump t .target false place ([.down name] ++ [.down more]) := by
      simp only [List.singleton_append, walkWith, hsame, h.maySearch, h'.maySearch]
      cases hat : t.at? (place ++ [.text name]) with
      | none => rfl
      | some o =>
        cases o with
        | file f => rfl
        | link target => exact absurd hat (hlink target)
        | folder mode' =>
          -- The folder is there but cannot be reached, so the walk ends before it.
          by_cases hsearch : (Object.folder mode).maySearch = true
          · have hleads := (h.looksUp hn).leads h.sound (refusal?_join hr hne hm)
              (h.maySearch.trans hsearch) hat
            rw [hleads.isFolder] at hnot
            cases hnot
          · simp [hsearch]
    rw [find, find, hlocate, hlocate', hwalk]

end Files.Tree

/-- Was a file at a place created, written or removed? -/
def Files.Tree.ChangesFile (t t' : Tree) (place : Place) : Prop :=
  t'.at? place ≠ t.at? place ∧ ∃ f, t.at? place = some (.file f) ∨ t'.at? place = some (.file f)

namespace Store

variable {s : Store} {p q : Principal} {t t' t'' : Tree} {root : Place}

/-! ### What a principal's calls change -/

/-- Is a place right in the folder of a principal? -/
def Belongs (s : Store) (p : Principal) (t : Tree) (place : Place) : Prop :=
  ∃ here mode name, t.Leads (s.folder p) here mode ∧ place = here ++ [name]

/-- Was a principal's folder perhaps made sure of, on some medium, and then nothing changed but in
that folder? -/
def ActsFor (s : Store) (p : Principal) (t t' : Tree) : Prop :=
  ∃ made, (made = t ∨ ∃ medium, made = (s.ensureFolder p t medium).2) ∧
    Tree.Spares (fun place => ¬ s.Belongs p made place) made t'

/-- What was in the folder of a principal still is, when nothing outside of it has changed. -/
theorem Belongs.of_spares {place : Place} (hspares : Tree.Spares (¬ s.Belongs p t ·) t t')
    (h : s.Belongs p t place) : s.Belongs p t' place := by
  obtain ⟨here, mode, name, hl, rfl⟩ := h
  exact ⟨here, mode, name, hl.of_keeps hspares.sound hspares.keeps, rfl⟩

/-- Where no folder is the principal's, nothing is changed at all. -/
theorem sameObjects_of_spares (hs : t.Sound) (hspares : Tree.Spares (¬ s.Belongs p t ·) t t')
    (hnot : t.isFolder (s.folder p) = false) : t.SameObjects t' := by
  refine hspares.sameObjects hs fun place hbelongs => ?_
  obtain ⟨here, mode, name, hl, rfl⟩ := hbelongs
  rw [hl.isFolder] at hnot
  cases hnot

/-- A path that leads to the folder of a principal has led there before. -/
theorem leads_of_spares {here : Place} {mode : Nat} (hs : t.Sound)
    (hspares : Tree.Spares (¬ s.Belongs p t ·) t t') (h : t'.Leads (s.folder p) here mode) :
    t.Leads (s.folder p) here mode := by
  cases hfolder : t.isFolder (s.folder p) with
  | true => exact h.before_of_keeps hs hspares.keeps hfolder
  | false => exact h.of_sameObjects (sameObjects_of_spares hs hspares hfolder)

/-! ### What another principal sees -/

/-- Are the folders of two principals two, with no link that leads nowhere under the second one's
name, and could the job root be made without passing through anything that is there? -/
structure Apart (s : Store) (p q : Principal) (t : Tree) : Prop where
  folders : ∀ {here mode here' mode'}, t.Leads (s.folder p) here mode →
    t.Leads (s.folder q) here' mode' → here' ≠ here
  left : ∀ {root mode here mode'}, t.Leads s.root root mode → t.Leads (s.folder p) here mode' →
    here ≠ root
  right : ∀ {root mode here mode'}, t.Leads s.root root mode → t.Leads (s.folder q) here mode' →
    here ≠ root
  link : ∀ {root mode}, t.Leads s.root root mode → t.isFolder (s.folder q) = false →
    ∀ target, t.at? (root ++ [.text q.name]) ≠ some (.link target)
  straight : t.isFolder s.root = false → s.root.IsStraight

/-- Is everything in a principal's folder as it was, and is what is missing missed as it was? -/
structure Untouched (s : Store) (q : Principal) (t t' : Tree) : Prop where
  root : t.isFolder s.root = true → t'.isFolder s.root = true
  leads : ∀ here mode, t'.Leads (s.folder q) here mode ↔ t.Leads (s.folder q) here mode
  same : ∀ here mode, t.Leads (s.folder q) here mode → ∀ name,
    t'.at? (here ++ [name]) = t.at? (here ++ [name])
  missed : t.isFolder (s.folder q) = false →
    (t.isFolder s.root = true ∨ q.name.utf8ByteSize ≤ Files.nameLimit) →
      ∀ name, Path.IsStep name → t'.find ((s.folder q).join name) = t.find ((s.folder q).join name)

namespace Untouched

/-- In one tree nothing has changed for anyone. -/
theorem refl (s : Store) (q : Principal) (t : Tree) : s.Untouched q t t :=
  ⟨id, fun _ _ => Iff.rfl, fun _ _ _ _ => rfl, fun _ _ _ _ => rfl⟩

/-- Where the objects are the same, nothing has changed for anyone. -/
theorem of_sameObjects (h : t.SameObjects t') : s.Untouched q t t' where
  root := fun hroot => (h.isFolder s.root).trans hroot
  leads _ _ := ⟨fun hl => hl.of_sameObjects h, h.leads⟩
  same _ _ _ _ := h.at? _
  missed _ _ _ _ := h.find _

/-- Whether an untouched principal has a folder does not change. -/
theorem isFolder_eq (h : s.Untouched q t t') (hs : t.Sound) (hs' : t'.Sound) :
    t'.isFolder (s.folder q) = t.isFolder (s.folder q) := by
  rw [Bool.eq_iff_iff]
  constructor
  · intro hfolder
    obtain ⟨here, mode, hl⟩ := Tree.exists_leads_of_isFolder hs' hfolder
    exact ((h.leads here mode).1 hl).isFolder
  · intro hfolder
    obtain ⟨here, mode, hl⟩ := Tree.exists_leads_of_isFolder hs hfolder
    exact ((h.leads here mode).2 hl).isFolder

/-- A principal who is untouched by two calls is untouched by both together. -/
theorem trans (h : s.Untouched q t t') (h' : s.Untouched q t' t'') (hs : t.Sound)
    (hs' : t'.Sound) : s.Untouched q t t'' where
  root := fun hroot => h'.root (h.root hroot)
  leads here mode := (h'.leads here mode).trans (h.leads here mode)
  same here mode hl name :=
    (h'.same here mode ((h.leads here mode).2 hl) name).trans (h.same here mode hl name)
  missed hnot hshort name hn :=
    (h'.missed ((h.isFolder_eq hs hs').trans hnot) (hshort.imp_left h.root) name hn).trans
      (h.missed hnot hshort name hn)

/-- **In a job root that stands,** a principal is untouched when what is in the principal's folder
stays, and what stands instead of the folder if there is none. -/
theorem of_keeps {mode : Nat} (hroot : t.Leads s.root root mode) (hs' : t'.Sound)
    (hk : t.Keeps t')
    (hown : t.isFolder (s.folder q) = false →
      t'.at? (root ++ [.text q.name]) = t.at? (root ++ [.text q.name]) ∧
        ∀ target, t.at? (root ++ [.text q.name]) ≠ some (.link target))
    (hsame : ∀ here mode, t.Leads (s.folder q) here mode → ∀ name,
      t'.at? (here ++ [name]) = t.at? (here ++ [name])) : s.Untouched q t t' where
  root := fun _ => (hroot.of_keeps hs' hk).isFolder
  leads here mode' := by
    refine ⟨fun hl => ?_, fun hl => hl.of_keeps hs' hk⟩
    cases hfolder : t.isFolder (s.folder q) with
    | true => exact hl.before_of_keeps hroot.sound hk hfolder
    | false =>
      obtain ⟨hat, hlink⟩ := hown hfolder
      have hfind := Tree.find_join_congr hroot (hroot.of_keeps hs' hk) q.isStep hat hlink
      exact ⟨hroot.sound, hfind.symm.trans hl.find⟩
  same := hsame
  missed hnot _ name hn := by
    obtain ⟨hat, hlink⟩ := hown hnot
    exact Tree.find_join_join_congr hroot (hroot.of_keeps hs' hk) q.isStep hn hat hlink hnot

end Untouched

/-- Principals with one place for their folders are one. -/
theorem place_inj (h : root ++ [Files.Name.text p.name] = root ++ [.text q.name]) : p = q := by
  have hname : p.name = q.name := by simpa using h
  cases p
  cases q
  subst hname
  rfl

/-- What is missed under a name in the job root is missed in the same way when the job root was
made, without that name. -/
theorem MakesRoot.find_join_join (h : s.MakesRoot p t t' root) (hf : s.root.text.toList ≠ [])
    {name more : String} (hn : Path.IsStep name) (hsize : name.utf8ByteSize ≤ Files.nameLimit)
    (hm : Path.IsStep more) (hnone : t'.at? (root ++ [.text name]) = none) :
    t'.find ((s.root.join name).join more) = t.find ((s.root.join name).join more) := by
  obtain ⟨mode, hroot, hsearch⟩ := h.leads
  have hne : (s.root.join name).text.toList ≠ [] := Path.text_join_ne_nil hf hn
  have hbelow := (Path.liesBelow_join hne hm).trans (Path.liesBelow_join hf hn)
  cases hr : Tree.refusal? ((s.root.join name).join more) with
  | some fault => simp [Tree.find, Tree.locate, hr]
  | none =>
    obtain ⟨jump, hlocate⟩ :=
      Tree.exists_locate_below hroot.sound hroot.find hbelow (by simp) hr .target
    have hwalk : Tree.walkWith jump t' .target false root ([.down name] ++ [.down more])
        = .error .noEntry := by
      simp [Tree.walkWith, hroot.maySearch, hsearch, hnone, Nat.not_lt.2 hsize]
    rw [Tree.find, Tree.find, h.missed _ _ .target hbelow (by simp) hr, hlocate, hwalk]
    rfl

namespace Apart

/-- Two principals are apart in a job root where the first one has a place, and the second one's
folder is elsewhere. -/
theorem of_root {mode : Nat} (hroot : t.Leads s.root root mode)
    (hlink : ∀ target, t.at? (root ++ [.text p.name]) ≠ some (.link target))
    (hq : ∀ here mode, t.Leads (s.folder q) here mode →
      here ≠ root ++ [.text p.name] ∧ here ≠ root)
    (hqlink : t.isFolder (s.folder q) = false →
      ∀ target, t.at? (root ++ [.text q.name]) ≠ some (.link target)) : s.Apart p q t where
  folders hl hl' := by
    rw [hroot.place_eq p.isStep hlink hl]
    exact (hq _ _ hl').1
  left hroot' hl := by
    rw [hroot.place_unique hroot', hroot.place_eq p.isStep hlink hl]
    simp
  right hroot' hl' := by
    rw [hroot.place_unique hroot']
    exact (hq _ _ hl').2
  link hroot' := by
    rw [hroot.place_unique hroot']
    exact hqlink
  straight hnot := by
    rw [hroot.isFolder] at hnot
    cases hnot

/-- **Two principals whose names in the job root are no links are apart.** -/
theorem of_not_link (hne : p ≠ q) {mode : Nat} (hroot : t.Leads s.root root mode)
    (hp : ∀ target, t.at? (root ++ [.text p.name]) ≠ some (.link target))
    (hq : ∀ target, t.at? (root ++ [.text q.name]) ≠ some (.link target)) : s.Apart p q t := by
  refine of_root hroot hp (fun here mode' hl => ?_) fun _ => hq
  rw [hroot.place_eq q.isStep hq hl]
  exact ⟨fun heq => hne (place_inj heq).symm, by simp⟩

/-- Principals that are apart are so in a tree with the same objects. -/
theorem of_sameObjects (h : s.Apart p q t) (hsame : t.SameObjects t') : s.Apart p q t' where
  folders hl hl' := h.folders (hl.of_sameObjects hsame) (hl'.of_sameObjects hsame)
  left hroot hl := h.left (hroot.of_sameObjects hsame) (hl.of_sameObjects hsame)
  right hroot hl := h.right (hroot.of_sameObjects hsame) (hl.of_sameObjects hsame)
  link hroot hnot target := by
    rw [hsame.at?]
    exact h.link (hroot.of_sameObjects hsame) ((hsame.isFolder _).symm.trans hnot) target
  straight hnot := h.straight ((hsame.isFolder _).symm.trans hnot)

/-! ### One call leaves another principal untouched -/

/-- **A folder that is made in the job root** is the first principal's alone. -/
theorem of_grows (h : s.Apart p q t) (hne : p ≠ q) {mode : Nat} (hroot : t.Leads s.root root mode)
    (hgrows : Tree.Grows (· = root ++ [.text p.name]) t t') :
    s.Untouched q t t' ∧ s.Apart p q t' := by
  have hother : ∀ place, place ≠ root ++ [.text p.name] → t'.at? place = t.at? place :=
    fun place hplace => (hgrows.at? place).resolve_right fun hnew => hplace hnew.1
  have hown : t'.at? (root ++ [.text q.name]) = t.at? (root ++ [.text q.name]) :=
    hother _ fun heq => hne (place_inj heq).symm
  have huntouched : s.Untouched q t t' := by
    refine .of_keeps hroot hgrows.sound hgrows.keeps (fun hnot => ⟨hown, h.link hroot hnot⟩)
      fun here mode' hl name => hother _ fun heq => ?_
    exact h.right hroot hl (List.append_inj_left' heq rfl)
  refine ⟨huntouched, ?_⟩
  cases hat : t.at? (root ++ [.text p.name]) with
  | some o => exact h.of_sameObjects (Tree.sameObjects_of_grows hroot.sound hgrows hat)
  | none =>
    refine of_root (hroot.of_keeps hgrows.sound hgrows.keeps) (fun target hlink => ?_)
      (fun here mode' hl' => ?_) fun hnot target => ?_
    · rcases hgrows.at? (root ++ [.text p.name]) with hsame | ⟨-, -, mode', hfolder⟩
      · rw [hsame, hat] at hlink
        cases hlink
      · rw [hfolder] at hlink
        cases hlink
    · have hl := (huntouched.leads here mode').1 hl'
      refine ⟨?_, h.right hroot hl⟩
      rintro rfl
      cases hl.at?.symm.trans hat
    · rw [hown]
      exact h.link hroot ((huntouched.isFolder_eq hroot.sound hgrows.sound).symm.trans hnot) target

/-- **A job root that is made** holds nothing of the second principal's. -/
theorem of_makesRoot (hs : t.Sound) (hf : s.root.text.toList ≠ []) (hne : p ≠ q)
    (hnot : t.isFolder s.root = false) (hmakes : s.MakesRoot p t t' root) :
    s.Untouched q t t' ∧ s.Apart p q t' := by
  obtain ⟨mode, hroot, hsearch⟩ := hmakes.leads
  -- What stands in the new root was made with it: the first principal's folder, at most.
  have hbelow : ∀ name : Files.Name, t'.at? (root ++ [name]) ≠ none →
      ∃ mode, t'.at? (root ++ [name]) = some (.folder mode) := by
    intro name hname
    rcases hmakes.grows.at? (root ++ [name]) with hsame | ⟨-, -, hfolder⟩
    · exact absurd (hsame.trans (hs.at?_below hmakes.fresh name)) hname
    · exact hfolder
  -- The second principal's folder is not, as it has another name.
  have hown : t'.at? (root ++ [.text q.name]) = none := by
    rcases hmakes.grows.at? (root ++ [.text q.name]) with hsame | ⟨hbegins | heq, -⟩
    · exact hsame.trans (hs.at?_below hmakes.fresh _)
    · have hlength := hbegins.length_le
      rw [List.length_append, List.length_singleton] at hlength
      omega
    · exact absurd (place_inj heq).symm hne
  have hmissing : t.isFolder (s.folder q) = false :=
    Tree.isFolder_join_eq_false hs hf q.isStep hnot
  have hmissing' : ∀ here mode', ¬ t'.Leads (s.folder q) here mode' := by
    intro here mode' hl
    obtain ⟨-, hat⟩ := hroot.eq_of_find q.isStep (by simp [hown]) hl.find
    cases hown.symm.trans hat
  refine ⟨⟨fun h => ?_, fun here mode' => ?_, fun here mode' hl => ?_, ?_⟩, ?_⟩
  · rw [hnot] at h
    cases h
  · refine ⟨fun hl => absurd hl (hmissing' here mode'), fun hl => ?_⟩
    rw [hl.isFolder] at hmissing
    cases hmissing
  · rw [hl.isFolder] at hmissing
    cases hmissing
  · intro _ hshort name hn
    have hsize : q.name.utf8ByteSize ≤ Files.nameLimit :=
      hshort.resolve_left (by rw [hnot]; exact Bool.false_ne_true)
    exact hmakes.find_join_join hf q.isStep hsize hn hown
  · refine of_root hroot (fun target hlink => ?_)
      (fun here mode' hl => absurd hl (hmissing' here mode')) fun _ target => by simp [hown]
    obtain ⟨mode', hfolder⟩ := hbelow (.text p.name) (by simp [hlink])
    cases hfolder.symm.trans hlink

/-- **Changes right in the first principal's folder** do not touch the second one's. -/
theorem of_spares (h : s.Apart p q t) (hs : t.Sound) (hf : s.root.text.toList ≠ [])
    (hspares : Tree.Spares (¬ s.Belongs p t ·) t t') : s.Untouched q t t' ∧ s.Apart p q t' := by
  have hgone : t.SameObjects t' → s.Untouched q t t' ∧ s.Apart p q t' := fun hsame =>
    ⟨.of_sameObjects hsame, h.of_sameObjects hsame⟩
  cases hfolder : t.isFolder (s.folder p) with
  | false => exact hgone (sameObjects_of_spares hs hspares hfolder)
  | true =>
    obtain ⟨here, mode', hl⟩ := Tree.exists_leads_of_isFolder hs hfolder
    obtain ⟨root, mode, hroot⟩ := Tree.exists_leads_of_locate hs hf p.isStep
      (Tree.locate_of_find hl.find)
    -- All that has changed is right in the first principal's folder.
    have hother : ∀ place name, place ≠ here →
        t'.at? (place ++ [name]) = t.at? (place ++ [name]) := by
      intro place name hplace
      refine hspares.same _ ?_
      rintro ⟨here', mode'', name', hl', heq⟩
      rw [hl.place_unique hl'] at heq
      exact hplace (List.append_inj_left' heq rfl)
    have huntouched : s.Untouched q t t' :=
      .of_keeps hroot hspares.sound hspares.keeps
        (fun hnot => ⟨hother root _ (h.left hroot hl).symm, h.link hroot hnot⟩)
        fun here' mode'' hl' name => hother here' name (h.folders hl hl')
    have hroot' := hroot.of_keeps hspares.sound hspares.keeps
    refine ⟨huntouched, fun hl₁ hl₂ => ?_, fun hroot₁ hl₁ => ?_, fun hroot₁ hl₂ => ?_,
      fun hroot₁ hnot target hlink => ?_, fun hnot => ?_⟩
    · exact h.folders (leads_of_spares hs hspares hl₁) ((huntouched.leads _ _).1 hl₂)
    · rw [hroot'.place_unique hroot₁]
      exact h.left hroot (leads_of_spares hs hspares hl₁)
    · rw [hroot'.place_unique hroot₁]
      exact h.right hroot ((huntouched.leads _ _).1 hl₂)
    · rw [hroot'.place_unique hroot₁] at hlink
      exact h.link hroot ((huntouched.isFolder_eq hs hspares.sound).symm.trans hnot) target
        (hspares.links _ target hlink)
    · rw [hroot'.isFolder] at hnot
      cases hnot

/-- **Making sure of the first principal's folder** makes folders alone, and none of the second
one's. -/
theorem ensureFolder (h : s.Apart p q t) (hs : t.Sound) (hf : s.root.text.toList ≠ [])
    (hne : p ≠ q) (medium : Medium) : (s.Untouched q t (s.ensureFolder p t medium).2 ∧
        s.Apart p q (s.ensureFolder p t medium).2) ∧
      ∃ within, Tree.Grows within t (s.ensureFolder p t medium).2 := by
  cases hroot : t.isFolder s.root with
  | true =>
    obtain ⟨root, mode, hl⟩ := Tree.exists_leads_of_isFolder hs hroot
    have hgrows := s.grows_ensureFolder p hl medium
    exact ⟨h.of_grows hne hl hgrows, _, hgrows⟩
  | false =>
    rcases ensureFolder_of_missing p hs hf (h.straight hroot) hroot medium with
      hsame | ⟨root, hmakes⟩
    · rw [hsame]
      exact ⟨⟨.refl s q t, h⟩, fun _ => False, Tree.Grows.refl _ hs⟩
    · exact ⟨of_makesRoot hs hf hne hroot hmakes, _, hmakes.grows⟩

/-- **What is done for the first principal** changes files right in that principal's folder only,
leaves the second principal untouched, and the two of them apart. -/
theorem actsFor (h : s.Apart p q t) (hs : t.Sound) (hf : s.root.text.toList ≠ []) (hne : p ≠ q)
    (hacts : s.ActsFor p t t') : t'.Sound ∧ s.Untouched q t t' ∧ s.Apart p q t' ∧
      ∀ place, t.ChangesFile t' place → s.Belongs p t' place := by
  obtain ⟨made, hmade, hspares⟩ := hacts
  obtain ⟨⟨huntouched, hapart⟩, within, hgrows⟩ :
      (s.Untouched q t made ∧ s.Apart p q made) ∧ ∃ within, Tree.Grows within t made := by
    rcases hmade with rfl | ⟨medium, rfl⟩
    · exact ⟨⟨.refl s q made, h⟩, fun _ => False, Tree.Grows.refl _ hs⟩
    · exact h.ensureFolder hs hf hne medium
  obtain ⟨huntouched', hapart'⟩ := hapart.of_spares hgrows.sound hf hspares
  refine ⟨hspares.sound, huntouched.trans huntouched' hs hgrows.sound, hapart', ?_⟩
  rintro place ⟨hchange, f, hfile⟩
  by_contra hnot
  have hsame : t'.at? place = made.at? place :=
    hspares.same place fun hbelongs => hnot (hbelongs.of_spares hspares)
  rw [hsame] at hchange hfile
  rcases hgrows.at? place with hkept | ⟨-, hnone, mode, hfolder⟩
  · exact hchange hkept
  · rw [hnone, hfolder] at hfile
    rcases hfile with hfile | hfile <;> cases hfile

end Apart

end Store

end JobSpool
