/-
# A job root that is missing

The first submission finds no job root, and makes it with all the folders on the way to it.  What a
path below it leads to is no place then, but it is an answer too: the same one for every path
below (`exists_locate_error`).  A job root that is made was missed with `noEntry`, since from any
other fault nothing is made.

The ancestors of the job root climb by one name at a time, and folders are made along them from
the nearest one that stands.  `MakesWay` is the invariant: the place was free, and everything new
stands on the way to it (`makesWay_of_climbs`).  So making sure of a principal's folder makes the
job root, perhaps with that folder in it, and nothing else; or it changes nothing
(`ensureFolder_of_missing`).
-/

import JobSpool.Proofs.Ancestors
import JobSpool.Proofs.Contents

namespace JobSpool

namespace Files.Tree

/-! ### Ways that lead to no folder -/

section Walk

variable {t : Tree} {slash : Bool}

/-- A walk that gets to no folder ends before it, whatever steps would follow.  `jump` goes on from
a link, and `jumps` does so when more steps follow. -/
theorem walkWith_error_append {jump : Place → Path → List Path.Step → Except OsError Spot}
    (jumps : Aim → Bool → Place → Path → List Path.Step → Except OsError Spot) (hs : t.Sound)
    (hjump : ∀ here target steps mode, t.at? here = some (.folder mode) →
      (∀ goal mode', jump here target steps ≠ .ok (.taken goal (.folder mode'))) →
        ∃ cause, ∀ aim slash' rest, rest ≠ [] →
          jumps aim slash' here target (steps ++ rest) = .error cause)
    {steps : List Path.Step} {here : Place} {mode : Nat}
    (hhere : t.at? here = some (.folder mode))
    (h : ∀ goal mode',
      walkWith jump t .target slash here steps ≠ .ok (.taken goal (.folder mode'))) :
    ∃ cause, ∀ aim slash' rest, rest ≠ [] →
      walkWith (jumps aim slash') t aim slash' here (steps ++ rest) = .error cause := by
  -- The induction is on the steps.  The walk ends at the first step that leads to no folder, and
  -- the cause is the same whatever would follow.
  induction steps generalizing here mode with
  | nil =>
    refine absurd ?_ (h here mode)
    rw [walkWith, hhere]
  | cons step steps ih =>
    by_cases hsearch : t.maySearch here = true
    · cases step with
      | stay =>
        simp only [walkWith, hsearch, if_true] at h
        simp only [List.cons_append, walkWith, hsearch, if_true]
        exact ih hhere h
      | up =>
        simp only [walkWith, hsearch, if_true] at h
        simp only [List.cons_append, walkWith, hsearch, if_true]
        obtain ⟨mode', habove⟩ := hs.housed here _ hhere
        exact ih habove h
      | down name =>
        have hmore : ∀ rest : List Path.Step, rest ≠ [] → (steps ++ rest).isEmpty = false :=
          fun rest hrest => by simp [hrest]
        simp only [walkWith, hsearch, Aim.opens, Aim.follows, Bool.not_true, Bool.and_false,
          Bool.false_eq_true, if_false] at h
        by_cases hlength : nameLimit < name.utf8ByteSize
        · refine ⟨.nameTooLong, fun aim slash' rest hrest => ?_⟩
          simp [walkWith, hsearch, hlength, hrest]
        · rw [if_neg hlength] at h
          cases hat : t.at? (here ++ [.text name]) with
          | none =>
            refine ⟨.noEntry, fun aim slash' rest hrest => ?_⟩
            simp [walkWith, hsearch, hlength, hrest, hat]
          | some o =>
            rw [hat] at h
            cases o with
            | file f =>
              refine ⟨.notFolder, fun aim slash' rest hrest => ?_⟩
              simp [walkWith, hsearch, hlength, hrest, hat]
            | link target =>
              obtain ⟨cause, hcause⟩ := hjump here target steps mode hhere h
              refine ⟨cause, fun aim slash' rest hrest => ?_⟩
              simp only [List.cons_append, walkWith, hsearch, hmore rest hrest, hlength, hat,
                Bool.not_true, Bool.false_and, Bool.false_eq_true, if_false]
              exact hcause aim slash' rest hrest
            | folder mode' =>
              obtain ⟨cause, hcause⟩ := ih hat h
              refine ⟨cause, fun aim slash' rest hrest => ?_⟩
              simp only [List.cons_append, walkWith, hsearch, hmore rest hrest, hlength, hat,
                Bool.not_true, Bool.false_and, Bool.false_eq_true, if_false]
              exact hcause aim slash' rest hrest
    · rw [Bool.not_eq_true] at hsearch
      exact ⟨.denied, fun aim slash' rest _ => walkWith_cons_of_not_maySearch hsearch⟩

/-- **A walk that gets to no folder ends before it,** in one way, whatever steps would follow. -/
theorem exists_walk_error_append (hs : t.Sound) {links : Nat} {steps : List Path.Step}
    {here : Place} {mode : Nat} (hhere : t.at? here = some (.folder mode))
    (h : ∀ goal mode', t.walk .target links slash here steps ≠ .ok (.taken goal (.folder mode'))) :
    ∃ cause, ∀ aim slash' rest, rest ≠ [] →
      t.walk aim links slash' here (steps ++ rest) = .error cause := by
  induction links generalizing slash here steps mode with
  | zero =>
    simp only [walk] at h ⊢
    exact walkWith_error_append (fun _ _ _ _ _ => .error .tooManyLinks) hs
      (fun _ _ _ _ _ _ => ⟨.tooManyLinks, fun _ _ _ _ => rfl⟩) hhere h
  | succ links ih =>
    simp only [walk] at h ⊢
    refine walkWith_error_append (fun aim slash' here target rest =>
      t.walk aim links (slash' || (rest.isEmpty && target.endsInSlash))
        (if target.isAbsolute then [] else here) (target.steps ++ rest)) hs ?_ hhere h
    intro here target steps mode hfolder hjump
    obtain ⟨mode', hstart⟩ := exists_folder_start hfolder target.isAbsolute
    obtain ⟨cause, hcause⟩ := ih hstart hjump
    refine ⟨cause, fun aim slash' rest hrest => ?_⟩
    rw [← List.append_assoc]
    exact hcause aim _ rest hrest

/-- Steps that stay change nothing before another step. -/
theorem walkWith_filter_stay {jump : Place → Path → List Path.Step → Except OsError Spot}
    {aim : Aim} {rest : List Path.Step} (hrest : rest ≠ [])
    (hjump : ∀ here target steps, jump here target (steps ++ rest)
      = jump here target (steps.filter (· != .stay) ++ rest))
    (steps : List Path.Step) (here : Place) :
    walkWith jump t aim slash here (steps ++ rest)
      = walkWith jump t aim slash here (steps.filter (· != .stay) ++ rest) := by
  induction steps generalizing here with
  | nil => rfl
  | cons step steps ih =>
    have hmore : (steps ++ rest).isEmpty = false := by simp [hrest]
    have hmore' : (steps.filter (· != .stay) ++ rest).isEmpty = false := by simp [hrest]
    cases step with
    | stay =>
      rw [List.cons_append, walkWith, ih, List.filter_cons_of_neg (by decide)]
      by_cases hsearch : t.maySearch here = true
      · rw [if_pos hsearch]
      · obtain ⟨next, more, hcons⟩ := List.exists_cons_of_ne_nil
          (List.append_ne_nil_of_right_ne_nil (steps.filter (· != .stay)) hrest)
        rw [if_neg hsearch, hcons, walkWith_cons_of_not_maySearch (Bool.not_eq_true _ ▸ hsearch)]
    | up =>
      rw [List.filter_cons_of_pos (by decide), List.cons_append, List.cons_append, walkWith,
        walkWith, ih]
    | down name =>
      rw [List.filter_cons_of_pos (by rfl), List.cons_append, List.cons_append, walkWith, walkWith,
        hmore, hmore', ih]
      simp only [fun target => hjump here target steps]

/-- Steps that stay do not show on a way that goes on. -/
theorem walk_filter_stay (aim : Aim) (links : Nat) (slash : Bool) {rest : List Path.Step}
    (hrest : rest ≠ []) (steps : List Path.Step) (here : Place) :
    t.walk aim links slash here (steps ++ rest)
      = t.walk aim links slash here (steps.filter (· != .stay) ++ rest) := by
  induction links generalizing slash steps here with
  | zero =>
    rw [walk]
    exact walkWith_filter_stay hrest (fun _ _ _ => rfl) steps here
  | succ links ih =>
    rw [walk]
    refine walkWith_filter_stay hrest (fun here target steps => ?_) steps here
    have hempty : ∀ front : List Path.Step, (front ++ rest).isEmpty = false := by simp [hrest]
    rw [hempty, hempty, ← List.append_assoc, ← List.append_assoc, ih _ (target.steps ++ steps),
      ih _ (target.steps ++ steps.filter (· != .stay)), List.filter_append, List.filter_append,
      List.filter_filter]
    simp only [Bool.and_self]

end Walk

/-! ### Paths below a folder -/

section Paths

variable {t t' : Tree} {folder path : Path} {place : Place} {mode : Nat} {name : String}

/-- **What lies below a missing folder** is missed in one way. -/
theorem exists_locate_error (hs : t.Sound) (hr : refusal? folder = none)
    (hnot : t.isFolder folder = false) : ∃ cause, ∀ path rest aim, path.LiesBelow folder rest →
      rest ≠ [] → refusal? path = none → t.locate aim path = .error (.system cause) := by
  have hwalk : ∀ goal mode, t.walk .target linkLimit folder.endsInSlash (t.start folder)
      folder.steps ≠ .ok (.taken goal (.folder mode)) := by
    intro goal mode hwalk
    rw [isFolder, find_eq_ok_iff.2 ⟨hr, hwalk⟩] at hnot
    cases hnot
  obtain ⟨modeStart, hstart⟩ := hs.exists_folder_start folder
  obtain ⟨cause, hcause⟩ := exists_walk_error_append hs hstart hwalk
  refine ⟨cause, fun path rest aim hbelow hrest hr' => ?_⟩
  have hsame : t.start path = t.start folder := by rw [start, start, hbelow.isAbsolute]
  rw [locate, hr', hsame, hbelow.steps]
  exact congrArg (Except.mapError Fault.system) (hcause aim path.endsInSlash rest hrest)

/-- Staying asks that the folder may be searched. -/
theorem walk_stay (aim : Aim) (links : Nat) (slash : Bool) {here : Place}
    (h : t.at? here = some (.folder mode)) : t.walk aim links slash here [.stay] =
      if (Object.folder mode).maySearch then .ok (.taken here (.folder mode))
        else .error .denied := by
  have hsearch : t.maySearch here = (Object.folder mode).maySearch := by simp [maySearch, h]
  cases links <;> simp only [walk, walkWith, hsearch, h]

/-- **Steps that stay do not matter** on the way to a folder in which names can be followed. -/
theorem Leads.of_same_names {plain : Path} (h : t.Leads plain place mode)
    (hm : (Object.folder mode).maySearch = true) (habs : plain.isAbsolute = folder.isAbsolute)
    (hnames : plain.steps.filter (· != .stay) = folder.steps.filter (· != .stay))
    (hr : refusal? folder = none) : t.Leads folder place mode := by
  obtain ⟨-, hplain⟩ := find_eq_ok_iff.1 h.find
  obtain ⟨modeStart, hstart⟩ := h.sound.exists_folder_start plain
  have hsame : t.start folder = t.start plain := by rw [start, start, habs]
  have hone : [Path.Step.stay] ≠ [] := List.cons_ne_nil _ _
  obtain ⟨links, last, -, hwalk⟩ := exists_walk_append .target false [.stay] h.sound
    (Keeps.refl t) (Or.inl hone) rfl hstart hplain
  rw [walk_stay _ _ _ h.at?, if_pos hm, walk_filter_stay _ _ _ hone, hnames,
    ← walk_filter_stay _ _ _ hone] at hwalk
  obtain ⟨goal, mode', hfolder, links', hgoal⟩ :=
    exists_walk_of_append folder.endsInSlash h.sound hone hstart hwalk
  have hat : t.at? goal = some (.folder mode') :=
    walk_hasSpot h.sound (fun _ => Path.isStep_of_mem_steps) hstart hfolder
  rw [walk_stay _ _ _ hat] at hgoal
  split at hgoal
  · cases hgoal
    exact ⟨h.sound, find_eq_ok_iff.2 ⟨hr, hsame ▸ hfolder⟩⟩
  · cases hgoal

/-- A name alone is looked up where relative paths start. -/
theorem Sound.looksUp (hs : t.Sound) (hn : Path.IsStep name) : t.LooksUp ⟨name⟩ t.home name := by
  have hempty : (Path.mk "").text.toList = [] := rfl
  obtain ⟨-, hsteps, habs, hslash⟩ := Path.join_of_empty hempty hn
  refine ⟨hn, hs.home, fun hr aim => ?_⟩
  obtain ⟨jump, hjump⟩ := exists_walk_eq t aim linkLimit false
  refine ⟨jump, ?_⟩
  rw [locate, hr, hsteps, hslash, start, habs, if_neg Bool.false_ne_true, ← hjump]

namespace LooksUp

/-- **What making a folder under a name has done.** -/
theorem makeFolder_eq_ok (h : t.LooksUp path place name) (hok : t.makeFolder path = .ok t') :
    refusal? path = none ∧ t.maySearch place = true ∧ (Name.text name).IsLegal ∧
      t.at? (place ++ [.text name]) = none ∧
        t' = t.put (place ++ [.text name]) (.folder folderMode) := by
  rw [makeFolder] at hok
  cases hlocate : t.locate .itself path with
  | error fault =>
    rw [hlocate] at hok
    cases hok
  | ok spot =>
    obtain ⟨hr, hm, hlegal, ⟨hnone, rfl⟩ | ⟨target, -, hfollows⟩ | ⟨o, -, rfl⟩⟩ :=
      h.locate_eq_ok hlocate
    · rw [hlocate] at hok
      dsimp only [add] at hok
      split at hok
      · cases hok
        exact ⟨hr, hm, hlegal, hnone, rfl⟩
      · cases hok
    · cases hfollows
    · rw [hlocate] at hok
      cases hok

/-- **A folder under a name is found.** -/
theorem leads (h : t.LooksUp path place name) (hs : t.Sound) (hr : refusal? path = none)
    (hsearch : t.maySearch place = true)
    (hat : t.at? (place ++ [.text name]) = some (.folder mode)) :
    t.Leads path (place ++ [.text name]) mode := by
  obtain ⟨-, hsize⟩ := hs.isLegal hat
  obtain ⟨jump, hlocate⟩ := h.locate hr .target
  have hwalk : walkWith jump t .target false place [.down name]
      = .ok (.taken (place ++ [.text name]) (.folder mode)) := by
    simp [walkWith, hsearch, hat, Nat.not_lt.2 hsize]
  refine ⟨hs, ?_⟩
  rw [find, hlocate, hwalk]
  rfl

/-- **A folder is made under a name that nothing has,** where names may be changed. -/
theorem makeFolder_eq (h : t.LooksUp path place name) (hr : refusal? path = none)
    (hsize : name.utf8ByteSize ≤ nameLimit) (hsearch : t.maySearch place = true)
    (hchange : t.mayChange place = true) (hnone : t.at? (place ++ [.text name]) = none) :
    t.makeFolder path = .ok (t.put (place ++ [.text name]) (.folder folderMode)) := by
  obtain ⟨jump, hlocate⟩ := h.locate hr .itself
  have hwalk : walkWith jump t .itself false place [.down name] = .ok (.vacant place name) := by
    simp [walkWith, hsearch, hnone, Nat.not_lt.2 hsize, Aim.opens]
  rw [makeFolder, hlocate, hwalk]
  simp [Except.mapError, add, hchange]

end LooksUp

end Paths

/-! ### Making the folders on the way -/

/-- Was the way to a folder made, and nothing else, where the folder was missing? -/
structure MakesWay (path : Path) (t t' : Tree) (place : Place) : Prop where
  leads : t'.Leads path place folderMode
  fresh : t.at? place = none
  grows : Grows (· <+: place) t t'

section Ways

variable {t t' : Tree} {path : Path} {place : Place} {name : String}

/-- Nothing stands below a place with nothing. -/
theorem Sound.at?_below (hs : t.Sound) (h : t.at? place = none) (name : Name) :
    t.at? (place ++ [name]) = none := by
  rw [Option.eq_none_iff_forall_ne_some]
  intro o ho
  obtain ⟨mode, hfolder⟩ := hs.housed _ o ho
  rw [List.dropLast_concat, h] at hfolder
  cases hfolder

/-- Nor is anything below a folder that was made last on a way. -/
theorem MakesWay.at?_below (h : MakesWay path t t' place) (hs : t.Sound) (name : Name) :
    t'.at? (place ++ [name]) = none := by
  rcases h.grows.at? (place ++ [name]) with hsame | ⟨hbegins, -⟩
  · rw [hsame]
    exact hs.at?_below h.fresh name
  · have hlength := hbegins.length_le
    rw [List.length_append, List.length_singleton] at hlength
    omega

/-- A folder that can be made at once is all of the way. -/
theorem LooksUp.makesWay (h : t.LooksUp path place name) (hs : t.Sound)
    (hok : t.makeFolder path = .ok t')
    (h' : t.Keeps t' → t'.Sound → t'.LooksUp path place name) :
    MakesWay path t t' (place ++ [.text name]) := by
  obtain ⟨hr, hsearch, -, hnone, heq⟩ := h.makeFolder_eq_ok hok
  have hs' := sound_makeFolder hs hok
  obtain ⟨mode, hplace⟩ := h.folder
  have hgrows : Grows (· <+: place ++ [.text name]) t t' := by
    rw [heq] at hs' ⊢
    exact (Grows.refl (· <+: place ++ [.text name]) hs).put (List.prefix_refl _) hnone hs'
  refine ⟨(h' hgrows.keeps hs').leads hs' hr ?_ ?_, hnone, hgrows⟩
  · rw [hgrows.keeps.maySearch hplace]
    exact hsearch
  · rw [heq, at?_put_self (by simp)]

/-- One more folder can be made at the end of a way. -/
theorem MakesWay.down (h : MakesWay path t t' place) (hs : t.Sound) (hn : Path.IsStep name)
    (hsize : name.utf8ByteSize ≤ nameLimit) (hr : refusal? (path.join name) = none) :
    ∃ t'', t'.makeFolder (path.join name) = .ok t'' ∧
      MakesWay (path.join name) t t'' (place ++ [.text name]) := by
  have hlooks := h.leads.looksUp hn
  have hsearch : t'.maySearch place = true := by rw [h.leads.maySearch]; decide
  have hchange : t'.mayChange place = true := by rw [h.leads.mayChange]; decide
  have hmake := hlooks.makeFolder_eq hr hsize hsearch hchange (h.at?_below hs _)
  have hway := hlooks.makesWay h.leads.sound hmake fun hk hs'' =>
    (h.leads.of_keeps hs'' hk).looksUp hn
  refine ⟨_, hmake, hway.leads, hs.at?_below h.fresh _, ?_⟩
  exact (h.grows.mono fun other hother => hother.trans (List.prefix_append _ _)).put
    (List.prefix_refl _) (hs.at?_below h.fresh _) hway.leads.sound

/-- Where a folder was made, the one above it is there. -/
theorem exists_leads_of_makeFolder (hs : t.Sound) (hf : path.text.toList ≠ [])
    (hn : Path.IsStep name) (hok : t.makeFolder (path.join name) = .ok t') :
    ∃ place mode, t.Leads path place mode := by
  rw [makeFolder] at hok
  cases hlocate : t.locate .itself (path.join name) with
  | error fault =>
    rw [hlocate] at hok
    cases hok
  | ok spot => exact exists_leads_of_locate hs hf hn hlocate

/-- A name that is missed because of the way to it is not refused. -/
theorem locate_of_noEntry (hf : path.text.toList ≠ []) (hn : Path.IsStep name)
    (hmake : t.makeFolder (path.join name) = .error (.system .noEntry)) :
    refusal? (path.join name) = none ∧
      t.locate .itself (path.join name) = .error (.system .noEntry) := by
  have hlocate : t.locate .itself (path.join name) = .error (.system .noEntry) := by
    rw [makeFolder] at hmake
    cases hlocate : t.locate .itself (path.join name) with
    | error fault =>
      rw [hlocate] at hmake
      exact congrArg Except.error (Except.error.inj hmake)
    | ok spot =>
      rw [hlocate] at hmake
      cases spot with
      | taken place' o => cases hmake
      | vacant here name' =>
        dsimp only [add] at hmake
        split at hmake <;> cases hmake
  refine ⟨?_, hlocate⟩
  cases hr : refusal? (path.join name) with
  | none => rfl
  | some fault =>
    rw [locate, hr] at hlocate
    cases hlocate
    exact absurd hr (refusal?_join_ne_noEntry hf hn)

/-- A path without a name leads to what is there, so no folder is made under it. -/
theorem makeFolder_ne_ok (hs : t.Sound) (h : path.steps = [] ∨ path.steps = [.stay]) :
    t.makeFolder path ≠ .ok t' := by
  intro hok
  obtain ⟨modeStart, hstart⟩ := hs.exists_folder_start path
  rw [makeFolder, locate] at hok
  cases hr : refusal? path with
  | some fault =>
    rw [hr] at hok
    cases hok
  | none =>
    rw [hr] at hok
    rcases h with h | h
    · rw [h, walk_nil t _ _ _ hstart] at hok
      cases hok
    · rw [h, walk_stay _ _ _ hstart] at hok
      cases hm : (Object.folder modeStart).maySearch <;> rw [hm] at hok <;> cases hok

/-- **Making a folder and those on the way to it** changes nothing, or makes all of the way.  The
induction is over the way: a folder whose parent was made can be made. -/
theorem makesWay_of_climbs (hs : t.Sound) {above : List Path} (h : Path.Climbs path above) :
    (t.makeFoldersBelow path above).2 = t ∨ ∃ t' place,
      t.makeFoldersBelow path above = (.ok (), t') ∧ MakesWay path t t' place := by
  induction h with
  | @top path h =>
    left
    rw [makeFoldersBelow]
    split
    · rename_i hok
      exact absurd hok (makeFolder_ne_ok hs h)
    · split <;> rfl
  -- A name of a relative path: it is made in the folder of the user, or not at all.
  | @home name hn hsize =>
    rw [makeFoldersBelow]
    cases hmake : t.makeFolder ⟨name⟩ with
    | ok t' =>
      refine Or.inr ⟨t', _, rfl, (hs.looksUp hn).makesWay hs hmake fun hk hs' => ?_⟩
      rw [← hk.home]
      exact hs'.looksUp hn
    | error fault =>
      left
      dsimp only
      split <;> rfl
  -- A name below: it is made at once, or after its parent, which is what the induction is for.
  | @down parent above name hne hn hsize _ ih =>
    rw [makeFoldersBelow_cons]
    cases hmake : t.makeFolder (parent.join name) with
    | ok t' =>
      obtain ⟨place, mode, hl⟩ := exists_leads_of_makeFolder hs hne hn hmake
      exact Or.inr ⟨t', _, rfl, (hl.looksUp hn).makesWay hs hmake fun hk hs' =>
        (hl.of_keeps hs' hk).looksUp hn⟩
    | error fault =>
      split
      · rename_i hok
        cases hok
      · rename_i hentry
        cases hentry
        obtain ⟨hr, -⟩ := locate_of_noEntry hne hn hmake
        rcases ih with hsame | ⟨t', place, hway, hmakes⟩
        · left
          split
          · rename_i hbelow
            rwa [hbelow] at hsame
          · rename_i hbelow
            rw [hbelow] at hsame
            dsimp only at hsame
            rw [hsame, hmake]
            dsimp only
            split <;> rfl
        · obtain ⟨t'', hmake', hmakes'⟩ := hmakes.down hs hn hsize hr
          rw [hway]
          dsimp only
          rw [hmake']
          exact Or.inr ⟨t'', _, rfl, hmakes'⟩
      · left
        split <;> rfl

/-- What is in a missing folder is missing. -/
theorem isFolder_join_eq_false (hs : t.Sound) (hf : path.text.toList ≠ []) (hn : Path.IsStep name)
    (hnot : t.isFolder path = false) : t.isFolder (path.join name) = false := by
  rw [Bool.eq_false_iff]
  intro hfolder
  obtain ⟨place', mode', hl'⟩ := exists_leads_of_isFolder hs hfolder
  obtain ⟨place, mode, hl⟩ := exists_leads_of_locate hs hf hn (locate_of_find hl'.find)
  rw [hl.isFolder] at hnot
  cases hnot

/-- **Making a folder in a folder that is missing** changes nothing, or makes the way to it, with or
without the folder itself. -/
theorem makeFolders_of_missing (hs : t.Sound) (hf : path.text.toList ≠ [])
    (hstraight : path.IsStraight) (hn : Path.IsStep name) (hnot : t.isFolder path = false) :
    (∃ fault, t.makeFolders (path.join name) = (.error fault, t)) ∨
      ∃ t' place, MakesWay path t t' place ∧
        t.makeFolder (path.join name) = .error (.system .noEntry) ∧
          ((∃ fault, t.makeFolders (path.join name) = (.error fault, t')) ∨
            t'.HasSpot (.vacant place name) ∧ t.makeFolders (path.join name)
              = (.ok (), t'.put (place ++ [.text name]) (.folder folderMode))) := by
  have hnot' := isFolder_join_eq_false hs hf hn hnot
  obtain ⟨plain, above, hancestors, hclimbs, habs, hnames⟩ :=
    Path.climbs_ancestors hf hstraight hn
  rw [makeFolders, hancestors]
  cases hmake : t.makeFolder (path.join name) with
  | ok t' =>
    obtain ⟨place, mode, hl⟩ := exists_leads_of_makeFolder hs hf hn hmake
    rw [hl.isFolder] at hnot
    cases hnot
  | error fault =>
    -- Only when the folder above it is missing are others made first.
    by_cases hentry : fault = .system .noEntry
    · subst hentry
      obtain ⟨hr, -⟩ := locate_of_noEntry hf hn hmake
      rw [makeFoldersBelow_cons, hmake]
      dsimp only
      rcases makesWay_of_climbs hs hclimbs with hsame | ⟨t', place, hway, hmakes⟩
      · left
        split
        · rename_i fault' t' hbelow
          rw [hbelow] at hsame
          exact ⟨fault', by rw [← hsame]⟩
        · rename_i t' hbelow
          rw [hbelow] at hsame
          dsimp only at hsame
          rw [hsame, hmake]
          exact ⟨.system .noEntry, by simp [hnot']⟩
      · right
        have hleads : t'.Leads path place folderMode :=
          hmakes.leads.of_same_names (by decide) habs hnames (refusal?_join hr hf hn)
        have hvacant := hmakes.at?_below hs (.text name)
        have hmakes' : MakesWay path t t' place := ⟨hleads, hmakes.fresh, hmakes.grows⟩
        refine ⟨t', place, hmakes', rfl, ?_⟩
        rw [hway]
        dsimp only
        cases hlast : t'.makeFolder (path.join name) with
        | ok t'' =>
          obtain ⟨-, -, hlegal, -, rfl⟩ := (hleads.looksUp hn).makeFolder_eq_ok hlast
          exact Or.inr ⟨⟨⟨_, hleads.at?⟩, hvacant, hlegal⟩, rfl⟩
        | error fault' =>
          have hmissing : t'.isFolder (path.join name) = false := by
            rw [Bool.eq_false_iff]
            intro hfolder
            obtain ⟨place', mode', hl'⟩ := exists_leads_of_isFolder hleads.sound hfolder
            obtain ⟨-, hat⟩ := hleads.eq_of_find hn (by simp [hvacant]) hl'.find
            rw [hvacant] at hat
            cases hat
          left
          exact ⟨fault', by simp [hmissing]⟩
    · exact Or.inl ⟨fault, makeFoldersBelow_of_error hmake hentry hnot' _⟩

end Ways

end Files.Tree

namespace Store

open Files (Tree Place File Object Medium)

/-- Was the job root made, and perhaps a principal's folder in it, and nothing else, where the way
to the job root was missing? -/
structure MakesRoot (s : Store) (p : Principal) (t t' : Tree) (root : Place) : Prop where
  leads : ∃ mode, t'.Leads s.root root mode ∧ (Object.folder mode).maySearch = true
  fresh : t.at? root = none
  grows : Tree.Grows (fun place => place <+: root ∨ place = root ++ [.text p.name]) t t'
  missed : ∀ path rest aim, path.LiesBelow s.root rest → rest ≠ [] → Tree.refusal? path = none →
    t.locate aim path = .error (.system .noEntry)

/-- Permissions that let the job root be searched take nothing away from it. -/
theorem leads_of_setMode {s : Store} {t t' : Tree} {root : Place} {mode mode' : Nat}
    (h : t.Leads s.root root mode) (hne : root ≠ []) (hmay : (Object.folder mode').maySearch = true)
    (hset : t.setMode s.root mode' = .ok t') :
    t' = t.put root (.folder mode') ∧ t'.Leads s.root root mode' := by
  have hsound := Tree.sound_setMode h.sound hset
  rw [Tree.setMode, h.find] at hset
  cases hset
  obtain ⟨-, o, hfind, hstays⟩ := Tree.find_extends h.sound
    (Tree.SameContents.put h.at? (.folder fun _ => hmay)).toExtends h.find
  cases hstays with
  | folder hmay' =>
    have hat := (Tree.Leads.mk hsound hfind).at?
    rw [Tree.at?_put_self hne] at hat
    cases hat
    exact ⟨rfl, hsound, hfind⟩

/-- **Making sure of a folder in a job root that is missing** makes the job root, or changes
nothing. -/
theorem ensureFolder_of_missing {s : Store} (p : Principal) {t : Tree} (hs : t.Sound)
    (hf : s.root.text.toList ≠ []) (hstraight : s.root.IsStraight)
    (hnot : t.isFolder s.root = false) (medium : Medium) : (s.ensureFolder p t medium).2 = t ∨
      ∃ root, s.MakesRoot p t (s.ensureFolder p t medium).2 root := by
  have hnot' := Tree.isFolder_join_eq_false hs hf p.isStep hnot
  rw [ensureFolder]
  dsimp only
  rw [folder, hnot', hnot, if_neg Bool.false_ne_true]
  rcases medium.makeFolders_cases t (s.root.join p.name) with ⟨cause, hrefused⟩ | hallowed
  · rw [hrefused]
    exact Or.inl rfl
  rw [hallowed]
  rcases Tree.makeFolders_of_missing hs hf hstraight p.isStep hnot with
    ⟨fault, hmade⟩ | ⟨t', root, hway, hentry, hmade⟩
  · left
    rw [hmade]
  · right
    -- Before the call nothing was found below the job root, whatever was looked for.
    have hmissed : ∀ path rest aim, path.LiesBelow s.root rest → rest ≠ [] →
        Tree.refusal? path = none → t.locate aim path = .error (.system .noEntry) := by
      obtain ⟨hr, hlocate⟩ := Tree.locate_of_noEntry hf p.isStep hentry
      obtain ⟨cause, hcause⟩ :=
        Tree.exists_locate_error hs (Tree.refusal?_join hr hf p.isStep) hnot
      have hsame := hcause _ _ .itself (Path.liesBelow_join hf p.isStep) (by simp) hr
      rw [hlocate] at hsame
      cases hsame
      exact hcause
    have hgrows : Tree.Grows (fun place => place <+: root ∨ place = root ++ [.text p.name]) t t' :=
      hway.grows.mono fun _ => Or.inl
    -- Once the job root is made, it stays made, whatever fails after that.
    have hdone : ∀ {t₁ : Tree} {mode : Nat}, t₁.Leads s.root root mode →
        (Object.folder mode).maySearch = true →
          Tree.Grows (fun place => place <+: root ∨ place = root ++ [.text p.name]) t t₁ →
            ∃ root, s.MakesRoot p t t₁ root := fun hl hm hg =>
      ⟨root, ⟨_, hl, hm⟩, hway.fresh, hg, hmissed⟩
    rcases hmade with ⟨fault, hmade⟩ | ⟨hspot, hmade⟩
    · rw [hmade]
      exact hdone hway.leads (by decide) hgrows
    · obtain ⟨-, hvacant, -⟩ := id hspot
      have hnone : t.at? (root ++ [.text p.name]) = none := hs.at?_below hway.fresh _
      have hnil : root ≠ [] := by
        rintro rfl
        cases hway.fresh
      have hmadeSound := Tree.sound_put_vacant hway.leads.sound hspot Files.folderMode
      have hgrows₁ := hgrows.put (Or.inr rfl) hnone hmadeSound
      have hnew := (Tree.Grows.refl (· = root ++ [.text p.name]) hway.leads.sound).put rfl hvacant
        hmadeSound
      have hl₁ := hway.leads.of_keeps hmadeSound hnew.keeps
      rw [hmade]
      dsimp only
      split
      · exact hdone hl₁ (by decide) hgrows₁
      · rename_i t₂ hallowed₂
        have hset := Medium.eq_ok_of_allow hallowed₂
        have hset₂ := hl₁.setMode_folder_eq_ok p.isStep (Tree.at?_put_self (by simp)) hset
        have hsound₂ := Tree.sound_setMode hmadeSound hset
        subst hset₂
        have hgrows₂ := hgrows₁.put (Or.inr rfl) hnone hsound₂
        have hl₂ := hway.leads.of_keeps hsound₂ (hnew.put rfl hvacant hsound₂).keeps
        rw [if_neg Bool.false_ne_true]
        split
        · exact hdone hl₂ (by decide) hgrows₂
        · rename_i t₃ hallowed₃
          obtain ⟨rfl, hl₃⟩ := leads_of_setMode hl₂ hnil (by decide)
            (Medium.eq_ok_of_allow hallowed₃)
          exact hdone hl₃ (by decide)
            (hgrows₂.put (Or.inl (List.prefix_refl _)) hway.fresh hl₃.sound)

end Store
end JobSpool
