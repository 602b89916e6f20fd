/-
# Where a path leads when files come and go

The store works on files right in a folder, under paths that are the folder's path and one
name more.  Two things are proved of such paths, for a tree as a file system holds it
(`Tree.Sound`): every place has one object, names are legal, and whatever stands somewhere
stands in a folder.

First, a longer path goes through the folder that a shorter one leads to
(`exists_walk_append`), so a path with one more name looks that name up in the folder
(`exists_locate_join`), however many links there are on the way.  Second, only folders
and links decide where a path leads.  Trees that share them (`Tree.Keeps`) lead to the same
folders (`find_of_keeps`), whatever files were written, created or removed in between.  Both
come from one induction over the steps of a walk and the links that are left to it.
-/

import JobSpool.Store
import Mathlib.Tactic.ByContra

namespace JobSpool

namespace Path

/-- Is the text the name of exactly one step down? -/
def IsStep (name : String) : Prop :=
  Step.ofPiece? name.toList = some (.down name) ∧ '/' ∉ name.toList

instance (name : String) : Decidable (IsStep name) :=
  inferInstanceAs (Decidable (_ ∧ _))

/-- A step of a path is not empty. -/
theorem IsStep.ne_nil {name : String} (h : IsStep name) : name.toList ≠ [] := by
  intro hnil
  simp [IsStep, hnil, Step.ofPiece?] at h

/-- A name does not start at the root. -/
theorem IsStep.isAbsolute {name : String} (h : IsStep name) :
    (Path.mk name).isAbsolute = false := by
  obtain ⟨c, cs, hcs⟩ := List.exists_cons_of_ne_nil h.ne_nil
  have hc : c ≠ '/' := fun heq => h.2 (by rw [hcs, heq]; exact List.mem_cons_self)
  simp [Path.isAbsolute, hcs, hc]

/-- What is added to a path does not change where it starts. -/
theorem isAbsolute_append (p : Path) (hp : p.text.toList ≠ []) (more : String) :
    (Path.mk (p.text ++ more)).isAbsolute = p.isAbsolute := by
  cases hcs : p.text.toList with
  | nil => exact absurd hcs hp
  | cons c cs => simp [isAbsolute, hcs]

/-- A path with characters is not the empty text. -/
theorem isEmpty_eq_false {p : Path} (hp : p.text.toList ≠ []) : p.text.isEmpty = false := by
  rw [Bool.eq_false_iff]
  intro h
  rw [String.isEmpty_iff] at h
  simp [h] at hp

/-- Joining a name puts a slash in front of it, unless there is one. -/
theorem join_eq {folder : Path} (hf : folder.text.toList ≠ []) {name : String} (hn : IsStep name) :
    folder.join name = if folder.endsInSlash then ⟨folder.text ++ name⟩
      else ⟨folder.text ++ "/" ++ name⟩ := by
  unfold join
  rw [hn.isAbsolute, isEmpty_eq_false hf]
  rfl

/-- **A folder and a name.**  The path to a name in a folder has one step more than the path to
the folder, starts where that one does and does not end in a slash. -/
theorem steps_join {folder : Path} (hf : folder.text.toList ≠ []) {name : String}
    (hn : IsStep name) :
    (folder.join name).steps = folder.steps ++ [.down name] ∧
      (folder.join name).isAbsolute = folder.isAbsolute ∧
        (folder.join name).endsInSlash = false := by
  have hlast : ∀ front : List Char, (front ++ name.toList).getLast? ≠ some '/' := by
    intro front h
    rw [List.getLast?_append, Option.or_eq_some_iff, List.getLast?_eq_none_iff] at h
    rcases h with h | ⟨h, -⟩
    · exact hn.2 (List.mem_of_getLast? h)
    · exact hn.ne_nil h
  have hpiece : (pieces name.toList).filterMap Step.ofPiece? = [.down name] := by
    rw [pieces_eq_singleton hn.2]
    simp [hn.1]
  rw [join_eq hf hn]
  -- With or without a slash between the folder and the name, the pieces are the same.
  split
  · rename_i hslash
    obtain ⟨base, hbase⟩ : ∃ base, folder.text.toList = base ++ ['/'] := by
      rw [endsInSlash, beq_iff_eq, List.getLast?_eq_some_iff] at hslash
      exact hslash
    refine ⟨?_, isAbsolute_append folder hf name, ?_⟩
    · rw [steps, steps, String.toList_append, hbase, List.append_assoc, List.singleton_append,
        pieces_append_slash, pieces_append_slash, List.filterMap_append, hpiece,
        List.filterMap_append]
      simp [pieces, Step.ofPiece?]
    · rw [endsInSlash, beq_eq_false_iff_ne, String.toList_append]
      exact hlast _
  · refine ⟨?_, ?_, ?_⟩
    · rw [steps, steps, String.toList_append, String.toList_append, List.append_assoc]
      rw [show "/".toList ++ name.toList = '/' :: name.toList from rfl, pieces_append_slash,
        List.filterMap_append, hpiece]
    · rw [String.append_assoc]
      exact isAbsolute_append folder hf _
    · rw [endsInSlash, beq_eq_false_iff_ne, String.toList_append]
      exact hlast _

/-- A path that a name was joined to is not empty. -/
theorem text_join_ne_nil {folder : Path} (hf : folder.text.toList ≠ []) {name : String}
    (hn : IsStep name) : (folder.join name).text.toList ≠ [] := by
  rw [join_eq hf hn]
  split <;> simp [hf]

/-- Does a path go on from a folder by more steps, and end in none that asks for a folder? -/
structure LiesBelow (path folder : Path) (rest : List Step) : Prop where
  steps : path.steps = folder.steps ++ rest
  isAbsolute : path.isAbsolute = folder.isAbsolute
  endsInSlash : path.endsInSlash = false

/-- A path with one more name lies below the path by that name. -/
theorem liesBelow_join {folder : Path} (hf : folder.text.toList ≠ []) {name : String}
    (hn : IsStep name) : (folder.join name).LiesBelow folder [.down name] := by
  obtain ⟨hsteps, habs, hslash⟩ := steps_join hf hn
  exact ⟨hsteps, habs, hslash⟩

/-- What lies below a path that lies below another lies below that one. -/
theorem LiesBelow.trans {path folder above : Path} {rest more : List Step}
    (h : path.LiesBelow folder more) (h' : folder.LiesBelow above rest) :
    path.LiesBelow above (rest ++ more) where
  steps := by rw [h.steps, h'.steps, List.append_assoc]
  isAbsolute := h.isAbsolute.trans h'.isAbsolute
  endsInSlash := h.endsInSlash

/-- A path that a name was joined to is the path, perhaps a slash, and the name. -/
theorem text_join {folder : Path} (hf : folder.text.toList ≠ []) {name : String}
    (hn : IsStep name) : ∃ slash, (folder.join name).text = folder.text ++ (slash ++ name) := by
  rw [join_eq hf hn]
  split
  · exact ⟨"", by simp⟩
  · exact ⟨"/", String.append_assoc⟩

/-- No piece between slashes has a slash. -/
theorem slash_notMem_of_mem_pieces {cs piece : List Char} (h : piece ∈ pieces cs) :
    '/' ∉ piece := by
  induction cs generalizing piece with
  | nil =>
    rw [pieces, List.mem_singleton] at h
    simp [h]
  | cons c cs ih =>
    rw [pieces] at h
    split at h
    · rcases List.mem_cons.1 h with rfl | h
      · exact List.not_mem_nil
      · exact ih h
    · rename_i hc
      cases hp : pieces cs with
      | nil => exact absurd hp (pieces_ne_nil cs)
      | cons first rest =>
        rw [hp, Text.extendFirst] at h
        rcases List.mem_cons.1 h with rfl | h
        · have hfirst := ih (hp ▸ List.mem_cons_self)
          simp [Ne.symm hc, hfirst]
        · exact ih (hp ▸ List.mem_cons_of_mem _ h)

/-- **Every step down is a name.** -/
theorem isStep_of_mem_steps {p : Path} {name : String} (h : .down name ∈ p.steps) :
    IsStep name := by
  rw [steps, List.mem_filterMap] at h
  obtain ⟨piece, hmem, hpiece⟩ := h
  have hname : name.toList = piece := by
    unfold Step.ofPiece? at hpiece
    split at hpiece
    · cases hpiece
    · cases hpiece
    · cases hpiece
    · cases hpiece
      simp
  exact ⟨hname ▸ hpiece, hname ▸ slash_notMem_of_mem_pieces hmem⟩

end Path

namespace Files

/-- Can a folder hold the name? -/
def Name.IsLegal : Name → Prop
  | .text s => Path.IsStep s ∧ s.utf8ByteSize ≤ nameLimit
  | .raw _ => True

instance : DecidablePred Name.IsLegal
  | .text s => inferInstanceAs (Decidable (Path.IsStep s ∧ _))
  | .raw _ => inferInstanceAs (Decidable True)

namespace Tree

/-- A tree as a file system holds it. -/
structure Sound (t : Tree) : Prop where
  /-- Every place has one object. -/
  distinct : (t.entries.map (·.1)).Nodup
  legal : ∀ e ∈ t.entries, ∀ name ∈ e.1, name.IsLegal
  /-- Whatever stands somewhere stands in a folder. -/
  housed : ∀ place o, t.at? place = some o → ∃ mode, t.at? place.dropLast = some (.folder mode)
  home : ∃ mode, t.at? t.home = some (.folder mode)

/-- Do all folders and links of a tree stand in another one, unchanged? -/
structure Keeps (t t' : Tree) : Prop where
  home : t'.home = t.home
  at? : ∀ place o, t.at? place = some o → (∀ f, o ≠ .file f) → t'.at? place = some o

/-- A tree keeps its own folders and links. -/
theorem Keeps.refl (t : Tree) : t.Keeps t :=
  ⟨rfl, fun _ _ h _ => h⟩

/-- What is kept twice is kept. -/
theorem Keeps.trans {t t' t'' : Tree} (h : t.Keeps t') (h' : t'.Keeps t'') : t.Keeps t'' :=
  ⟨h'.home.trans h.home, fun place o ho hf => h'.at? place o (h.at? place o ho hf) hf⟩

/-- A folder is kept. -/
theorem Keeps.folder {t t' : Tree} (h : t.Keeps t') {place : Place} {mode : Nat}
    (hp : t.at? place = some (.folder mode)) : t'.at? place = some (.folder mode) :=
  h.at? place _ hp fun _ => nofun

/-- A folder that is kept may be searched as before. -/
theorem Keeps.maySearch {t t' : Tree} (h : t.Keeps t') {place : Place} {mode : Nat}
    (hp : t.at? place = some (.folder mode)) : t'.maySearch place = t.maySearch place := by
  rw [Tree.maySearch, Tree.maySearch, h.folder hp, hp]

section Walk

variable {t t' : Tree} {slash : Bool} {goal : Place} {o : Object}

/-- What leads somewhere by a step leads there through a folder that may be searched. -/
theorem maySearch_of_walkWith {jump : Place → Path → List Path.Step → Except OsError Spot}
    {aim : Aim} {here : Place} {step : Path.Step} {steps : List Path.Step} {spot : Spot}
    (h : walkWith jump t aim slash here (step :: steps) = .ok spot) :
    t.maySearch here = true := by
  by_contra hnot
  rw [walkWith_cons_of_not_maySearch (Bool.not_eq_true _ ▸ hnot)] at h
  cases h

/-- The steps to a folder can be taken in any tree that keeps the folders and links, and more
steps go on from the folder.  `jump` and `jump'` go on from a link, and `E` is what is to hold
of the outcome. -/
theorem walkWith_append {jump jump' : Place → Path → List Path.Step → Except OsError Spot}
    {aim : Aim} {slash' : Bool} {rest : List Path.Step} (hs : t.Sound) (hk : t.Keeps t')
    (hrest : rest ≠ [] ∨ aim = .target) (ho : o.isFolder = true) {E : Except OsError Spot → Prop}
    (hend : E (walkWith jump' t' aim slash' goal rest))
    (hjump : ∀ here target steps mode, t.at? here = some (.folder mode) →
      jump here target steps = .ok (.taken goal o) → E (jump' here target (steps ++ rest)))
    {steps : List Path.Step} {here : Place} {mode : Nat}
    (hhere : t.at? here = some (.folder mode))
    (h : walkWith jump t .target slash here steps = .ok (.taken goal o)) :
    E (walkWith jump' t' aim slash' here (steps ++ rest)) := by
  -- The induction is on the steps to the folder; both walks take the same one, up to a link.
  induction steps generalizing here mode with
  | nil =>
    rw [walkWith, hhere] at h
    injection h with h
    injection h with h _
    exact h ▸ hend
  | cons step steps ih =>
    have hsearch := maySearch_of_walkWith h
    have hsearch' : t'.maySearch here = true := (hk.maySearch hhere).trans hsearch
    cases step with
    | stay =>
      rw [walkWith, if_pos hsearch] at h
      rw [List.cons_append, walkWith, if_pos hsearch']
      exact ih hhere h
    | up =>
      rw [walkWith, if_pos hsearch] at h
      rw [List.cons_append, walkWith, if_pos hsearch']
      obtain ⟨mode', habove⟩ := hs.housed here _ hhere
      exact ih habove h
    | down name =>
      -- More steps follow, or the aim does not open the end: either way this name is not the
      -- last.
      have hopens : ((steps ++ rest).isEmpty && slash' && aim.opens) = false := by
        rcases hrest with hrest | rfl
        · simp [hrest]
        · simp [Aim.opens]
      simp only [walkWith, hsearch, Bool.not_true, Bool.false_eq_true, if_false, Aim.opens,
        Bool.and_false] at h
      simp only [List.cons_append, walkWith, hsearch', Bool.not_true, Bool.false_eq_true,
        if_false, hopens]
      split at h
      · cases h
      · rename_i hlength
        rw [if_neg hlength]
        cases hat : t.at? (here ++ [.text name]) with
        -- A name with nothing there ends the walk, and so does a file: neither leads to a folder.
        | none =>
          simp only [hat] at h
          split at h <;> cases h
        | some next =>
          simp only [hat] at h
          cases next with
          | file f =>
            dsimp only at h
            split at h
            · injection h with h
              injection h with _ h
              subst h
              cases ho
            · cases h
          -- The two trees have the same link here, so both walks go on at its target.
          | link target =>
            have hfollow : ((steps ++ rest).isEmpty && !aim.follows) = false := by
              rcases hrest with hrest | rfl
              · simp [hrest]
              · simp [Aim.follows]
            simp only [Aim.follows, Bool.not_true, Bool.and_false, Bool.false_eq_true,
              if_false] at h
            have hlink : ∀ f, Object.link target ≠ .file f := by
              intro f hf
              cases hf
            rw [hk.at? _ _ hat hlink]
            simp only [hfollow, Bool.false_eq_true, if_false]
            exact hjump here target steps mode hhere h
          | folder mode' =>
            rw [hk.folder hat]
            exact ih hat h

/-- The way behind a link starts in a folder. -/
theorem exists_folder_start {here : Place} {mode : Nat}
    (hhere : t.at? here = some (.folder mode)) (absolute : Bool) :
    ∃ mode', t.at? (if absolute then [] else here) = some (.folder mode') := by
  cases absolute with
  | true => exact ⟨folderMode, rfl⟩
  | false => exact ⟨mode, hhere⟩

/-- **A longer path goes through the folder that a shorter one leads to.**  The number of links
that are left then depends on the way, and so does the slash when no more steps follow. -/
theorem exists_walk_append (aim : Aim) (slash' : Bool) (rest : List Path.Step) (hs : t.Sound)
    (hk : t.Keeps t') (hrest : rest ≠ [] ∨ aim = .target) (ho : o.isFolder = true) {links : Nat}
    {steps : List Path.Step} {here : Place} {mode : Nat} (hhere : t.at? here = some (.folder mode))
    (h : t.walk .target links slash here steps = .ok (.taken goal o)) :
    ∃ links' last, (rest ≠ [] → last = slash') ∧
      t'.walk aim links slash' here (steps ++ rest) = t'.walk aim links' last goal rest := by
  induction links generalizing slash slash' here steps mode with
  | zero =>
    rw [walk] at h
    refine walkWith_append (E := fun r => ∃ links' last, (rest ≠ [] → last = slash') ∧
      r = t'.walk aim links' last goal rest) hs hk hrest ho ⟨0, slash', fun _ => rfl, rfl⟩ ?_
      hhere h
    intro here target steps mode _ hjump
    cases hjump
  | succ links ih =>
    rw [walk] at h
    refine walkWith_append (E := fun r => ∃ links' last, (rest ≠ [] → last = slash') ∧
      r = t'.walk aim links' last goal rest) hs hk hrest ho ⟨links + 1, slash', fun _ => rfl, rfl⟩
      ?_ hhere h
    intro here target steps mode hfolder hjump
    obtain ⟨mode', hstart⟩ := exists_folder_start hfolder target.isAbsolute
    obtain ⟨links', last, hlast, hwalk⟩ :=
      ih (slash' || ((steps ++ rest).isEmpty && target.endsInSlash)) hstart hjump
    refine ⟨links', last, fun hne => ?_, ?_⟩
    · rw [hlast hne]
      simp [hne]
    · rw [← hwalk, List.append_assoc]

/-- The other way round, a walk that gets further comes through a folder.  `R` is what is to
hold of that folder. -/
theorem walkWith_of_append {jump jump' : Place → Path → List Path.Step → Except OsError Spot}
    {aim : Aim} {slash' : Bool} {rest : List Path.Step} {spot : Spot} (hs : t.Sound)
    (hrest : rest ≠ []) {R : Place → Prop}
    (hend : ∀ goal, walkWith jump t aim slash goal rest = .ok spot → R goal)
    (hjump : ∀ here target steps mode, t.at? here = some (.folder mode) →
      jump here target (steps ++ rest) = .ok spot →
        ∃ goal mode', jump' here target steps = .ok (.taken goal (.folder mode')) ∧ R goal)
    {steps : List Path.Step} {here : Place} {mode : Nat}
    (hhere : t.at? here = some (.folder mode))
    (h : walkWith jump t aim slash here (steps ++ rest) = .ok spot) :
    ∃ goal mode', walkWith jump' t .target slash' here steps
      = .ok (.taken goal (.folder mode')) ∧ R goal := by
  induction steps generalizing here mode with
  | nil =>
    refine ⟨here, mode, ?_, hend here h⟩
    rw [walkWith, hhere]
  | cons step steps ih =>
    have hsearch := maySearch_of_walkWith h
    cases step with
    | stay =>
      rw [List.cons_append, walkWith, if_pos hsearch] at h
      rw [walkWith, if_pos hsearch]
      exact ih hhere h
    | up =>
      rw [List.cons_append, walkWith, if_pos hsearch] at h
      rw [walkWith, if_pos hsearch]
      obtain ⟨mode', habove⟩ := hs.housed here _ hhere
      exact ih habove h
    | down name =>
      have hmore : (steps ++ rest).isEmpty = false := by simp [hrest]
      simp only [List.cons_append, walkWith, hsearch, hmore, Bool.not_true, Bool.false_and,
        Bool.false_eq_true, if_false] at h
      simp only [walkWith, hsearch, Aim.opens, Aim.follows, Bool.not_true, Bool.and_false,
        Bool.false_eq_true, if_false]
      split at h
      · cases h
      · rename_i hlength
        rw [if_neg hlength]
        split at h
        · cases h
        · cases h
        · exact hjump here _ steps mode hhere h
        · rename_i hat
          exact ih hat h

/-- **A walk that gets further comes through a folder.** -/
theorem exists_walk_of_append {aim : Aim} (slash' : Bool) {rest : List Path.Step} {spot : Spot}
    (hs : t.Sound) (hrest : rest ≠ []) {links : Nat} {steps : List Path.Step} {here : Place}
    {mode : Nat} (hhere : t.at? here = some (.folder mode))
    (h : t.walk aim links slash here (steps ++ rest) = .ok spot) :
    ∃ goal mode', t.walk .target links slash' here steps = .ok (.taken goal (.folder mode')) ∧
      ∃ links', t.walk aim links' slash goal rest = .ok spot := by
  induction links generalizing slash slash' here steps mode with
  | zero =>
    rw [walk] at h
    refine walkWith_of_append hs hrest (fun goal hgoal => ⟨0, hgoal⟩) ?_ hhere h
    intro here target steps mode _ hjump
    cases hjump
  | succ links ih =>
    rw [walk] at h
    refine walkWith_of_append hs hrest (fun goal hgoal => ⟨links + 1, hgoal⟩) ?_ hhere h
    intro here target steps mode hfolder hjump
    obtain ⟨mode', hstart⟩ := exists_folder_start hfolder target.isAbsolute
    have hmore : (steps ++ rest).isEmpty = false := by simp [hrest]
    rw [hmore, Bool.false_and, Bool.or_false, ← List.append_assoc] at hjump
    exact ih _ hstart hjump

/-- Is what a walk leads to in the tree: does the object stand there, or is the free name one
that the folder there can hold? -/
def HasSpot (t : Tree) : Spot → Prop
  | .taken place o => t.at? place = some o
  | .vacant place name => (∃ mode, t.at? place = some (.folder mode)) ∧
      t.at? (place ++ [.text name]) = none ∧ (Name.text name).IsLegal

/-- One round of a walk ends where something may stand, if the jumps at links do. -/
theorem walkWith_hasSpot {jump : Place → Path → List Path.Step → Except OsError Spot} {aim : Aim}
    (hs : t.Sound) {spot : Spot}
    (hjump : ∀ here target steps mode, t.at? here = some (.folder mode) →
      (∀ name, .down name ∈ steps → Path.IsStep name) →
        jump here target steps = .ok spot → t.HasSpot spot)
    {steps : List Path.Step} (hsteps : ∀ name, .down name ∈ steps → Path.IsStep name)
    {here : Place} {mode : Nat} (hhere : t.at? here = some (.folder mode))
    (h : walkWith jump t aim slash here steps = .ok spot) : t.HasSpot spot := by
  induction steps generalizing here mode with
  | nil =>
    rw [walkWith, hhere] at h
    cases h
    exact hhere
  | cons step steps ih =>
    have hrest : ∀ name, .down name ∈ steps → Path.IsStep name := fun name hname =>
      hsteps name (List.mem_cons_of_mem _ hname)
    cases step with
    | stay =>
      rw [walkWith] at h
      split at h
      · exact ih hrest hhere h
      · cases h
    | up =>
      rw [walkWith] at h
      split at h
      · obtain ⟨mode', habove⟩ := hs.housed here _ hhere
        exact ih hrest habove h
      · cases h
    | down name =>
      rw [walkWith] at h
      split at h
      · cases h
      · split at h
        · cases h
        · split at h
          · cases h
          · rename_i hlength
            -- What stands under the name decides: nothing, a file, a link or a folder.
            split at h
            · rename_i hat
              split at h
              · cases h
                exact ⟨⟨mode, hhere⟩, hat, hsteps name List.mem_cons_self, Nat.not_lt.1 hlength⟩
              · cases h
            · rename_i hat
              split at h
              · cases h
                exact hat
              · cases h
            · rename_i hat
              split at h
              · cases h
                exact hat
              · exact hjump here _ steps mode hhere hrest h
            · rename_i hat
              exact ih hrest hat h

/-- **What a walk leads to is there.** -/
theorem walk_hasSpot {aim : Aim} (hs : t.Sound) {spot : Spot} {links : Nat}
    {steps : List Path.Step} (hsteps : ∀ name, .down name ∈ steps → Path.IsStep name)
    {here : Place} {mode : Nat} (hhere : t.at? here = some (.folder mode))
    (h : t.walk aim links slash here steps = .ok spot) : t.HasSpot spot := by
  induction links generalizing slash here steps mode with
  | zero =>
    rw [walk] at h
    refine walkWith_hasSpot hs ?_ hsteps hhere h
    intro here target steps mode _ _ hjump
    cases hjump
  | succ links ih =>
    rw [walk] at h
    refine walkWith_hasSpot hs ?_ hsteps hhere h
    intro here target steps mode hfolder hrest hjump
    obtain ⟨mode', hstart⟩ := exists_folder_start hfolder target.isAbsolute
    refine ih (fun name hname => ?_) hstart hjump
    rcases List.mem_append.1 hname with hname | hname
    · exact Path.isStep_of_mem_steps hname
    · exact hrest name hname

end Walk

/-! ### Paths to folders and into them -/

/-- A path starts at a folder. -/
theorem Sound.exists_folder_start {t : Tree} (hs : t.Sound) (p : Path) :
    ∃ mode, t.at? (t.start p) = some (.folder mode) := by
  obtain ⟨mode, hhome⟩ := hs.home
  exact Tree.exists_folder_start hhome p.isAbsolute

/-- Finding is walking, for a path that is not refused for its length. -/
theorem find_eq_ok_iff {t : Tree} {p : Path} {place : Place} {o : Object} :
    t.find p = .ok (place, o) ↔ refusal? p = none ∧
      t.walk .target linkLimit p.endsInSlash (t.start p) p.steps = .ok (.taken place o) := by
  unfold find locate
  cases refusal? p with
  | some fault => simp
  | none =>
    cases t.walk .target linkLimit p.endsInSlash (t.start p) p.steps with
    | error e => simp [Except.mapError]
    | ok spot => cases spot <;> simp [Except.mapError]

/-- **What is read is the content of the file that a path leads to.** -/
theorem read_eq_ok_iff {t : Tree} {p : Path} {content : ByteArray} : t.read p = .ok content ↔
    ∃ place f, t.find p = .ok (place, .file f) ∧ (Object.file f).mayRead = true ∧
      f.content = content := by
  unfold read opened
  cases hfind : t.find p with
  | error fault => simp
  | ok found =>
    obtain ⟨place, o⟩ := found
    dsimp only
    cases hmay : o.mayRead with
    | false =>
      rw [if_neg Bool.false_ne_true]
      refine iff_of_false (by simp) ?_
      rintro ⟨_, f, hfound, hread, -⟩
      cases hfound
      exact Bool.noConfusion (hmay.symm.trans hread)
    | true =>
      rw [if_pos rfl]
      cases o with
      | file f =>
        constructor
        · intro h
          cases h
          exact ⟨place, f, rfl, hmay, rfl⟩
        · rintro ⟨_, f', hfound, -, rfl⟩
          cases hfound
          rfl
      | folder mode => simp
      | link target => simp

/-- A walk of no steps ends where it starts. -/
theorem walk_nil (t : Tree) (aim : Aim) (links : Nat) (slash : Bool) {here : Place} {mode : Nat}
    (h : t.at? here = some (.folder mode)) :
    t.walk aim links slash here [] = .ok (.taken here (.folder mode)) := by
  cases links <;> rw [walk, walkWith, h]

/-- A path that is not refused is not empty. -/
theorem text_ne_nil_of_refusal? {p : Path} (h : refusal? p = none) : p.text.toList ≠ [] := by
  intro hnil
  have hempty : p.text = "" := String.toList_eq_nil_iff.1 hnil
  simp [refusal?, hempty] at h

/-- A path that leads somewhere is not refused for its length. -/
theorem refusal?_of_locate {t : Tree} {aim : Aim} {p : Path} {spot : Spot}
    (h : t.locate aim p = .ok spot) : refusal? p = none := by
  rw [locate] at h
  split at h
  · cases h
  · assumption

/-- **What a path leads to is there.** -/
theorem locate_hasSpot {t : Tree} (hs : t.Sound) {aim : Aim} {p : Path} {spot : Spot}
    (h : t.locate aim p = .ok spot) : t.HasSpot spot := by
  rw [locate] at h
  split at h
  · cases h
  · obtain ⟨mode, hstart⟩ := hs.exists_folder_start p
    cases hwalk : t.walk aim linkLimit p.endsInSlash (t.start p) p.steps with
    | error cause =>
      rw [hwalk] at h
      cases h
    | ok spot' =>
      rw [hwalk] at h
      cases h
      exact walk_hasSpot hs (fun _ => Path.isStep_of_mem_steps) hstart hwalk

/-- **Files do not decide where a path to a folder leads.** -/
theorem find_of_keeps {t t' : Tree} (hs : t.Sound) (hk : t.Keeps t') {p : Path} {place : Place}
    {mode : Nat} (h : t.find p = .ok (place, .folder mode)) :
    t'.find p = .ok (place, .folder mode) := by
  rw [find_eq_ok_iff] at h ⊢
  refine ⟨h.1, ?_⟩
  obtain ⟨modeStart, hstart⟩ := hs.exists_folder_start p
  obtain ⟨links, last, -, hwalk⟩ := exists_walk_append .target p.endsInSlash [] hs hk
    (Or.inr rfl) rfl hstart h.2
  have hplace : t.at? place = some (.folder mode) :=
    walk_hasSpot hs (fun _ => Path.isStep_of_mem_steps) hstart h.2
  rw [List.append_nil, walk_nil t' .target links last (hk.folder hplace)] at hwalk
  rw [Tree.start, hk.home]
  exact hwalk

/-- A walk follows steps, however it goes on from a link. -/
theorem exists_walk_eq (t : Tree) (aim : Aim) (links : Nat) (slash : Bool) :
    ∃ jump, t.walk aim links slash = walkWith jump t aim slash := by
  cases links <;> exact ⟨_, rfl⟩

/-- **What lies below a folder is looked up from there.** -/
theorem exists_locate_below {t : Tree} (hs : t.Sound) {folder path : Path} {place : Place}
    {mode : Nat} (h : t.find folder = .ok (place, .folder mode)) {rest : List Path.Step}
    (hbelow : path.LiesBelow folder rest) (hrest : rest ≠ []) (hr : refusal? path = none)
    (aim : Aim) :
    ∃ jump, t.locate aim path = (walkWith jump t aim false place rest).mapError .system := by
  rw [find_eq_ok_iff] at h
  obtain ⟨modeStart, hstart⟩ := hs.exists_folder_start folder
  obtain ⟨links, last, hlast, hwalk⟩ := exists_walk_append aim false rest hs
    (Keeps.refl t) (Or.inl hrest) rfl hstart h.2
  obtain ⟨jump, hjump⟩ := exists_walk_eq t aim links false
  refine ⟨jump, ?_⟩
  rw [locate, hr, hbelow.endsInSlash, hbelow.steps, Tree.start, hbelow.isAbsolute, ← hjump]
  rw [hlast hrest] at hwalk
  exact congrArg (Except.mapError Fault.system) hwalk

/-- **A path into a folder looks its name up there.** -/
theorem exists_locate_join {t : Tree} (hs : t.Sound) {folder : Path} {place : Place} {mode : Nat}
    (h : t.find folder = .ok (place, .folder mode)) {name : String} (hn : Path.IsStep name)
    (hr : refusal? (folder.join name) = none) (aim : Aim) :
    ∃ jump, t.locate aim (folder.join name)
      = (walkWith jump t aim false place [.down name]).mapError .system :=
  exists_locate_below hs h
    (Path.liesBelow_join (text_ne_nil_of_refusal? (find_eq_ok_iff.1 h).1) hn) (by simp) hr aim

end Tree
end Files
end JobSpool
