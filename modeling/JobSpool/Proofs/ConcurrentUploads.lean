/-
# Uploads at the same time

`create_named_file`: `SPEC_FULL.md`, 5, "unique-name allocation at submission time prevents
two submissions from colliding on the same input file".

Several callers want a file that is named after an upload, all in one folder, and their steps come
in any order (`run`).  A caller lists the folder once, and then tries one name after another; a name
that something stands under by then is passed over.  So the listing may be out of date when a name
is tried, and nothing but the creation of a file, which is one step, keeps the callers apart.

A caller that is alone does what `Store.createNamed` does (`exists_steps_alone`).

`KeepsApart` says that this is enough.  No two callers are given the same name, every caller that is
given one has exactly one new file under it, nothing that was there changes, and a caller is told
that the names are exhausted only if each of them was of no use at the time.  It holds after every
sequence of steps (`uploads_keep_apart`), by an induction over `Accounts`, which says what the files
are in terms of the names that were given, and over `Considered`, which says what became of the
names that a caller has passed over.
-/

import JobSpool.Proofs.InputNames
import Mathlib.Data.List.Induction
import Mathlib.Logic.Function.Basic

namespace JobSpool

open Files (Tree Place File Object)

/-- Somebody who wants a file that is named after an upload. -/
structure Uploader where
  /-- The name of the upload. -/
  upload : String
  base : String
  isStem : FileName.uploadStem upload = some base
  reserved : List String
  now : Instant

namespace Uploader

/-- How far a caller has come. -/
inductive Stage
  | waiting
  /-- These names are left. -/
  | trying (names : List String)
  | done (answer : Except StorageError Path)

/-- One step of a caller. -/
def advance (u : Uploader) (folder : Path) (t : Tree) : Stage → Stage × Tree
  | .waiting =>
    match Store.list folder t with
    | .error e => (.done (.error e), t)
    | .ok entries => (.trying (Store.candidates u.base u.reserved entries), t)
  | .trying [] => (.done (.error (.namesExhausted folder u.base)), t)
  | .trying (name :: names) =>
    match t.create (folder.join name) u.now with
    | .ok t => (.done (.ok (folder.join name)), t)
    | .error (.system .exists) => (.trying names, t)
    | .error fault => (.done (.error (.create (folder.join name) fault)), t)
  | .done answer => (.done answer, t)

variable {u : Uploader} {folder : Path} {t : Tree} {stage : Stage}

/-- The first step of a caller: the folder is listed. -/
theorem advance_waiting (u : Uploader) : u.advance folder t .waiting =
    match Store.list folder t with
    | .error e => (.done (.error e), t)
    | .ok entries => (.trying (Store.candidates u.base u.reserved entries), t) :=
  (rfl)

/-- A later step of a caller: the next name is tried. -/
theorem advance_trying_cons (u : Uploader) (name : String) (names : List String) :
    u.advance folder t (.trying (name :: names)) =
      match t.create (folder.join name) u.now with
      | .ok t => (.done (.ok (folder.join name)), t)
      | .error (.system .exists) => (.trying names, t)
      | .error fault => (.done (.error (.create (folder.join name) fault)), t) :=
  (rfl)

/-- What the names for an upload start with is a word. -/
theorem isWord_base (u : Uploader) : IsWord u.base :=
  FileName.isWord_of_uploadStem u.isStem

/-- A name that is refused for another reason than being taken is the last one. -/
theorem advance_of_error (u : Uploader) {name : String} {names : List String} {fault : Files.Fault}
    (h : t.create (folder.join name) u.now = .error fault) (hne : fault ≠ .system .exists) :
    u.advance folder t (.trying (name :: names))
      = (.done (.error (.create (folder.join name) fault)), t) := by
  rw [advance_trying_cons, h]
  split
  · rename_i hok
    cases hok
  · rename_i hexists
    exact absurd (Except.error.inj hexists) hne
  · rename_i hfault
    rw [Except.error.inj hfault]

/-- **One step creates a file under the next name,** or the files stay as they are. -/
theorem advance_cases (u : Uploader) (folder : Path) (t : Tree) (stage : Stage) :
    ((u.advance folder t stage).2 = t ∧
      ∀ path, (u.advance folder t stage).1 = .done (.ok path) → stage = .done (.ok path)) ∨
    ∃ name names t', stage = .trying (name :: names) ∧
      t.create (folder.join name) u.now = .ok t' ∧
      u.advance folder t stage = (.done (.ok (folder.join name)), t') := by
  cases stage with
  | waiting =>
    rw [advance_waiting]
    cases Store.list folder t with
    | error e => exact Or.inl ⟨rfl, fun path h => by cases h⟩
    | ok entries => exact Or.inl ⟨rfl, fun path h => by cases h⟩
  | trying names =>
    cases names with
    | nil => exact Or.inl ⟨rfl, fun path h => by cases h⟩
    | cons name names =>
      rw [advance_trying_cons]
      cases hcreate : t.create (folder.join name) u.now with
      | ok t' => exact Or.inr ⟨name, names, t', rfl, hcreate, rfl⟩
      | error fault =>
        left
        split
        · rename_i hok
          cases hok
        · exact ⟨rfl, fun path h => by cases h⟩
        · exact ⟨rfl, fun path h => by cases h⟩
  | done answer => exact Or.inl ⟨rfl, fun path h => h⟩

/-- The names that are left after a step. -/
theorem trying_of_advance {names : List String} (h : (u.advance folder t stage).1 = .trying names) :
    (stage = .waiting ∧ ∃ entries, Store.list folder t = .ok entries ∧
      names = Store.candidates u.base u.reserved entries) ∨
    ∃ name, stage = .trying (name :: names) ∧
      t.create (folder.join name) u.now = .error (.system .exists) := by
  cases stage with
  | waiting =>
    rw [advance_waiting] at h
    cases hlist : Store.list folder t with
    | error e =>
      rw [hlist] at h
      cases h
    | ok entries =>
      rw [hlist] at h
      exact Or.inl ⟨rfl, entries, rfl, (Stage.trying.inj h).symm⟩
  | trying names' =>
    cases names' with
    | nil => cases h
    | cons name names' =>
      rw [advance_trying_cons] at h
      split at h
      · cases h
      · rename_i hcreate
        obtain rfl := Stage.trying.inj h
        exact Or.inr ⟨name, rfl, hcreate⟩
      · cases h
  | done answer => cases h

/-- When a caller is told that the names are exhausted. -/
theorem exhausted_of_advance {place : Path} {base : String}
    (h : (u.advance folder t stage).1 = .done (.error (.namesExhausted place base))) :
    stage = .done (.error (.namesExhausted place base)) ∨
      stage = .trying [] ∧ place = folder ∧ base = u.base := by
  cases stage with
  | waiting =>
    rw [advance_waiting, Store.list] at h
    split at h
    · rename_i hlist
      split at hlist
      · cases hlist
        cases h
      · cases hlist
    · cases h
  | trying names =>
    cases names with
    | nil =>
      cases h
      exact Or.inr ⟨rfl, rfl, rfl⟩
    | cons name names =>
      rw [advance_trying_cons] at h
      split at h <;> cases h
  | done answer => exact Or.inl h

/-- How far a caller has come after some steps on its own, and the files then. -/
def steps (u : Uploader) (folder : Path) : Nat → Stage × Tree → Stage × Tree
  | 0, now => now
  | n + 1, now => u.steps folder n (u.advance folder now.2 now.1)

/-- A caller that is alone tries the names in order. -/
theorem steps_trying (u : Uploader) (folder : Path) (t : Tree) (names : List String) :
    ∃ n, u.steps folder n (.trying names, t)
      = match Store.orExhausted folder u.base (Store.createFirst folder u.now t names) with
        | .error e => (.done (.error e), t)
        | .ok (path, t') => (.done (.ok path), t') := by
  induction names with
  | nil => exact ⟨1, rfl⟩
  | cons name names ih =>
    obtain ⟨n, hn⟩ := ih
    cases hcreate : t.create (folder.join name) u.now with
    | ok t' => exact ⟨1, by simp only [steps, advance_trying_cons, Store.createFirst_cons, hcreate,
        Store.orExhausted]⟩
    | error fault =>
      by_cases hexists : fault = .system .exists
      · subst hexists
        refine ⟨n + 1, ?_⟩
        simpa only [steps, advance_trying_cons, Store.createFirst_cons, hcreate] using hn
      · have hfirst : Store.createFirst folder u.now t (name :: names)
            = .error (.create (folder.join name) fault) :=
          Store.createFirst_cons_of_error hcreate hexists
        rw [hfirst]
        exact ⟨1, u.advance_of_error hcreate hexists⟩

/-- **A caller that is alone** does what creating a file named after an upload does. -/
theorem exists_steps_alone (u : Uploader) (folder : Path) (t : Tree) :
    ∃ n, u.steps folder n (.waiting, t)
      = match Store.createNamed folder u.base u.reserved u.now t with
        | .error e => (.done (.error e), t)
        | .ok (path, t') => (.done (.ok path), t') := by
  rw [Store.createNamed]
  cases hlist : Store.list folder t with
  | error e => exact ⟨1, by simp only [steps, advance_waiting, hlist]⟩
  | ok entries =>
    obtain ⟨n, hn⟩ := u.steps_trying folder t (Store.candidates u.base u.reserved entries)
    exact ⟨n + 1, by simpa only [steps, advance_waiting, hlist] using hn⟩

end Uploader

/-! ### Many callers -/

namespace Uploads

variable {ι : Type} [DecidableEq ι]

/-- The files, and how far each caller has come. -/
structure World (ι : Type) where
  files : Tree
  stage : ι → Uploader.Stage

/-- One caller takes a step. -/
def step (folder : Path) (callers : ι → Uploader) (w : World ι) (i : ι) : World ι where
  files := ((callers i).advance folder w.files (w.stage i)).2
  stage := Function.update w.stage i ((callers i).advance folder w.files (w.stage i)).1

/-- The callers take their steps in some order. -/
def run (folder : Path) (callers : ι → Uploader) (t : Tree) (order : List ι) : World ι :=
  order.foldl (step folder callers) ⟨t, fun _ => .waiting⟩

variable {folder : Path} {callers : ι → Uploader} {t : Tree} {here : Place}

/-- One step more is taken where the others have led. -/
theorem run_concat (order : List ι) (i : ι) :
    run folder callers t (order ++ [i]) = step folder callers (run folder callers t order) i := by
  rw [run, List.foldl_append]
  rfl

/-- The files after a step are those that the caller leaves who takes it. -/
theorem files_step (w : World ι) (i : ι) : (step folder callers w i).files
    = ((callers i).advance folder w.files (w.stage i)).2 :=
  rfl

/-- The caller who takes a step gets on. -/
theorem stage_step_self (w : World ι) (i : ι) : (step folder callers w i).stage i
    = ((callers i).advance folder w.files (w.stage i)).1 :=
  Function.update_self ..

/-- The other callers stay where they are. -/
theorem stage_step_of_ne (w : World ι) {i j : ι} (h : j ≠ i) :
    (step folder callers w i).stage j = w.stage j :=
  Function.update_of_ne h ..

/-- The answer that a caller was given. -/
def World.answer? (w : World ι) (i : ι) : Option (Except StorageError Path) :=
  match w.stage i with
  | .done answer => some answer
  | _ => none

/-- What became of a name that a caller has passed over: it was taken when it was tried. -/
def WasTaken (folder : Path) (callers : ι → Uploader) (t : Tree) (order : List ι) (here : Place)
    (i : ι) (name : String) : Prop :=
  ∃ before names o, before ++ [i] <+: order ∧
    (run folder callers t before).stage i = .trying (name :: names) ∧
    (run folder callers t before).files.at? (here ++ [.text name]) = some o

/-- Is a caller kept apart from all the others, and from what was there? -/
structure KeepsApart (folder : Path) (callers : ι → Uploader) (t : Tree) (order : List ι)
    (here : Place) : Prop where
  /-- No two callers are given the same name. -/
  distinct : ∀ i j path, (run folder callers t order).answer? i = some (.ok path) →
    (run folder callers t order).answer? j = some (.ok path) → i = j
  /-- Under a name that is given nothing stood at first, and there is an empty file now. -/
  made : ∀ i path, (run folder callers t order).answer? i = some (.ok path) →
    ∃ name, path = folder.join name ∧ t.at? (here ++ [.text name]) = none ∧
      (run folder callers t order).files.at? (here ++ [.text name])
        = some (.file ⟨ByteArray.empty, Files.fileMode, (callers i).now⟩)
  /-- Nothing else is new. -/
  only : ∀ place o, (run folder callers t order).files.at? place = some o → t.at? place = none →
    ∃ i name, (run folder callers t order).answer? i = some (.ok (folder.join name)) ∧
      place = here ++ [.text name]
  /-- What was there is still there, unchanged. -/
  kept : ∀ place o, t.at? place = some o →
    (run folder callers t order).files.at? place = some o
  /-- The names are exhausted for a caller only if each of them was a stem of a file when it listed
  the folder, or is reserved, or was taken when it was tried. -/
  exhausted : ∀ i place base,
    (run folder callers t order).answer? i = some (.error (.namesExhausted place base)) →
    ∃ before entries, before ++ [i] <+: order ∧
      (run folder callers t before).stage i = .waiting ∧
      Store.list folder (run folder callers t before).files = .ok entries ∧
      ∀ n < Store.namedAttempts, ∀ name, name = Store.candidate (callers i).base (n + 1) →
        (∃ e ∈ entries, e.stem = name) ∨ Store.claimsReserved (callers i).reserved name = true ∨
          WasTaken folder callers t order here i name

/-! ### The files, in terms of the names that were given -/

/-- Are the files those at first and one more for each name that was given? -/
structure Accounts (folder : Path) (callers : ι → Uploader) (t : Tree) (here : Place) (mode : Nat)
    (w : World ι) : Prop where
  leads : w.files.Leads folder here mode
  distinct : ∀ i j path, w.stage i = .done (.ok path) → w.stage j = .done (.ok path) → i = j
  made : ∀ i path, w.stage i = .done (.ok path) →
    ∃ name, IsWord name ∧ path = folder.join name ∧ t.at? (here ++ [.text name]) = none ∧
      w.files.at? (here ++ [.text name])
        = some (.file ⟨ByteArray.empty, Files.fileMode, (callers i).now⟩)
  only : ∀ place o, w.files.at? place = some o → t.at? place = none →
    ∃ i name, w.stage i = .done (.ok (folder.join name)) ∧ place = here ++ [.text name]
  kept : ∀ place o, t.at? place = some o → w.files.at? place = some o
  /-- The names that are left are names of inputs. -/
  left : ∀ i names, w.stage i = .trying names → ∀ name ∈ names, IsWord name

namespace Accounts

variable {mode : Nat} {w : World ι}

omit [DecidableEq ι] in
/-- Before the first step nobody was given a name, and the files are those that there were. -/
theorem start (h : t.Leads folder here mode) :
    Accounts folder callers t here mode ⟨t, fun _ => .waiting⟩ where
  leads := h
  distinct _ _ _ hi := by cases hi
  made _ _ hi := by cases hi
  only place o ho hnone := by
    rw [hnone] at ho
    cases ho
  kept _ _ ho := ho
  left _ _ hi := by cases hi

/-- **Names of inputs are all that is tried.** -/
theorem left_step (h : Accounts folder callers t here mode w) (i j : ι) {names : List String}
    (hj : (step folder callers w i).stage j = .trying names) : ∀ name ∈ names, IsWord name := by
  by_cases hji : j = i
  · subst hji
    rw [stage_step_self] at hj
    rcases Uploader.trying_of_advance hj with ⟨-, entries, -, hnames⟩ | ⟨first, hstage, -⟩
    · intro name hname
      rw [hnames] at hname
      obtain ⟨⟨n, rfl⟩, -⟩ := Store.mem_candidates hname
      exact Store.isWord_candidate (callers j).isWord_base n
    · exact fun name hname => h.left j _ hstage name (List.mem_cons_of_mem _ hname)
  · rw [stage_step_of_ne w hji] at hj
    exact h.left j names hj

/-- A step that gives no name leaves the accounts as they are. -/
theorem step_of_files_eq (h : Accounts folder callers t here mode w) {i : ι}
    (hfiles : ((callers i).advance folder w.files (w.stage i)).2 = w.files)
    (hdone : ∀ path, ((callers i).advance folder w.files (w.stage i)).1 = .done (.ok path) →
      w.stage i = .done (.ok path)) :
    Accounts folder callers t here mode (step folder callers w i) := by
  have hstages : ∀ j path, (step folder callers w i).stage j = .done (.ok path) ↔
      w.stage j = .done (.ok path) := by
    intro j path
    by_cases hji : j = i
    · subst hji
      rw [stage_step_self]
      refine ⟨hdone path, fun hj => ?_⟩
      rw [hj]
      rfl
    · rw [stage_step_of_ne w hji]
  have hsame : (step folder callers w i).files = w.files := hfiles
  refine ⟨hsame ▸ h.leads, ?_, ?_, ?_, ?_, fun j _ => h.left_step i j⟩
  · intro j k path hj hk
    exact h.distinct j k path ((hstages j path).1 hj) ((hstages k path).1 hk)
  · intro j path hj
    rw [hsame]
    exact h.made j path ((hstages j path).1 hj)
  · intro place o ho hnone
    rw [hsame] at ho
    obtain ⟨j, name, hj, hplace⟩ := h.only place o ho hnone
    exact ⟨j, name, (hstages j _).2 hj, hplace⟩
  · rw [hsame]
    exact h.kept

omit [DecidableEq ι] in
/-- Where nothing stands, nothing stood at first. -/
theorem free_at_first (h : Accounts folder callers t here mode w) {place : Place}
    (hfree : w.files.at? place = none) : t.at? place = none := by
  rw [Option.eq_none_iff_forall_ne_some]
  intro o ho
  rw [h.kept place o ho] at hfree
  cases hfree

omit [DecidableEq ι] in
/-- A name under which nothing stands was given to nobody. -/
theorem ne_of_free (h : Accounts folder callers t here mode w) {name : String}
    (hword : IsWord name) (hfree : w.files.at? (here ++ [.text name]) = none) {j : ι} {path : Path}
    (hj : w.stage j = .done (.ok path)) : path ≠ folder.join name := by
  rintro rfl
  obtain ⟨name', hword', hpath, -, hat⟩ := h.made j _ hj
  have hname := congrArg Path.shownName hpath
  have hfolder : folder.text.toList ≠ [] := h.leads.text_ne_nil
  rw [shownName_join hfolder hword.isStep, shownName_join hfolder hword'.isStep] at hname
  rw [← hname, hfree] at hat
  cases hat

/-- **A name that is given was free,** and has a new file from then on. -/
theorem step_of_create (h : Accounts folder callers t here mode w) {i : ι} {name : String}
    {names : List String} {t' : Tree} (hstage : w.stage i = .trying (name :: names))
    (hcreate : w.files.create (folder.join name) (callers i).now = .ok t')
    (hadvance : (callers i).advance folder w.files (w.stage i)
      = (.done (.ok (folder.join name)), t')) :
    Accounts folder callers t here mode (step folder callers w i) := by
  have hword : IsWord name := h.left i _ hstage name List.mem_cons_self
  obtain ⟨here', mode', hleads, -, hfree, hlegal, -, rfl⟩ :=
    Tree.create_eq_ok h.leads.sound h.leads.text_ne_nil hword.isStep hcreate
  obtain rfl := h.leads.place_unique hleads
  have hfiles : (step folder callers w i).files = w.files.put (here' ++ [.text name])
      (.file ⟨ByteArray.empty, Files.fileMode, (callers i).now⟩) := by
    rw [files_step, hadvance]
  have hself : (step folder callers w i).stage i = .done (.ok (folder.join name)) := by
    rw [stage_step_self, hadvance]
  have hfills := Tree.fills_put h.leads.sound h.leads.at? hlegal (Tree.fileOrFree_of_at? hfree)
    ⟨ByteArray.empty, Files.fileMode, (callers i).now⟩
  -- Whoever has a path has been given it by this step, or had it before.
  have hstages : ∀ j path, (step folder callers w i).stage j = .done (.ok path) →
      (j = i ∧ path = folder.join name) ∨ w.stage j = .done (.ok path) := by
    intro j path hj
    by_cases hji : j = i
    · subst hji
      rw [hself] at hj
      cases hj
      exact Or.inl ⟨rfl, rfl⟩
    · rw [stage_step_of_ne w hji] at hj
      exact Or.inr hj
  refine ⟨?_, ?_, ?_, ?_, ?_, fun j _ => h.left_step i j⟩
  -- The folder is there still.
  · have hspares : Tree.Spares (fun _ => False) w.files _ :=
      hfills.spares (Tree.fileOrFree_of_at? hfree) id
    rw [hfiles]
    exact h.leads.of_keeps hspares.sound hspares.keeps
  -- No two callers have one path: the name was free, and the others' were not.
  · intro j k path hj hk
    rcases hstages j path hj with ⟨rfl, rfl⟩ | hj
    · rcases hstages k _ hk with ⟨rfl, -⟩ | hk
      · rfl
      · exact absurd rfl (h.ne_of_free hword hfree hk)
    · rcases hstages k path hk with ⟨-, rfl⟩ | hk
      · exact absurd rfl (h.ne_of_free hword hfree hj)
      · exact h.distinct j k path hj hk
  -- Every path that was given has a file.
  · intro j path hj
    rw [hfiles]
    rcases hstages j path hj with ⟨rfl, rfl⟩ | hj
    · exact ⟨name, hword, rfl, h.free_at_first hfree, Tree.at?_put_self (by simp)⟩
    · obtain ⟨name', hword', rfl, hnone, hat⟩ := h.made j path hj
      refine ⟨name', hword', rfl, hnone, ?_⟩
      rw [Tree.at?_put_of_ne, hat]
      intro hsame
      rw [hsame, hfree] at hat
      cases hat
  -- Every new file was given to somebody.
  · intro place o ho hnone
    rw [hfiles] at ho
    by_cases hplace : place = here' ++ [.text name]
    · exact ⟨i, name, hself, hplace⟩
    · rw [Tree.at?_put_of_ne hplace] at ho
      obtain ⟨j, name', hj, hplace'⟩ := h.only place o ho hnone
      have hji : j ≠ i := by
        rintro rfl
        rw [hstage] at hj
        cases hj
      exact ⟨j, name', (stage_step_of_ne w hji).trans hj, hplace'⟩
  -- What was there before is there still.
  · intro place o ho
    have hkept := h.kept place o ho
    rw [hfiles, Tree.at?_put_of_ne, hkept]
    rintro rfl
    rw [hfree] at hkept
    cases hkept

/-- **A step keeps the accounts.** -/
theorem step (h : Accounts folder callers t here mode w) (i : ι) :
    Accounts folder callers t here mode (step folder callers w i) := by
  rcases (callers i).advance_cases folder w.files (w.stage i) with
    ⟨hfiles, hdone⟩ | ⟨name, names, t', hstage, hcreate, hadvance⟩
  · exact h.step_of_files_eq hfiles hdone
  · exact h.step_of_create hstage hcreate hadvance

end Accounts

/-- **The accounts hold after every sequence of steps.** -/
theorem accounts_run {mode : Nat} (h : t.Leads folder here mode) (callers : ι → Uploader)
    (order : List ι) : Accounts folder callers t here mode (run folder callers t order) := by
  induction order using List.reverseRecOn with
  | nil => exact Accounts.start h
  | append_singleton order i ih =>
    rw [run_concat]
    exact ih.step i

/-! ### The names that a caller has passed over -/

/-- A name that was taken at some time counts as taken at any later one. -/
theorem WasTaken.mono {order : List ι} {i : ι} {name : String}
    (h : WasTaken folder callers t order here i name) (more : List ι) :
    WasTaken folder callers t (order ++ more) here i name := by
  obtain ⟨before, names, o, hbefore, hstage, hat⟩ := h
  exact ⟨before, names, o, hbefore.trans (List.prefix_append _ _), hstage, hat⟩

/-- Has a caller listed the folder, and found each of the names that it meant to try taken, but for
those that are left? -/
def Considered (folder : Path) (callers : ι → Uploader) (t : Tree) (order : List ι) (here : Place)
    (i : ι) (names : List String) : Prop :=
  ∃ before entries, before ++ [i] <+: order ∧
    (run folder callers t before).stage i = .waiting ∧
    Store.list folder (run folder callers t before).files = .ok entries ∧
    ∀ name ∈ Store.candidates (callers i).base (callers i).reserved entries,
      name ∈ names ∨ WasTaken folder callers t order here i name

/-- What a caller has considered stays considered, whatever steps come next. -/
theorem Considered.mono {order : List ι} {i : ι} {names : List String}
    (h : Considered folder callers t order here i names) (more : List ι) :
    Considered folder callers t (order ++ more) here i names := by
  obtain ⟨before, entries, hbefore, hwaiting, hlist, htaken⟩ := h
  exact ⟨before, entries, hbefore.trans (List.prefix_append _ _), hwaiting, hlist,
    fun name hname => (htaken name hname).imp_right fun hname => hname.mono more⟩

/-- **Every name that a caller has passed over was taken when it was tried.** -/
theorem considered_run {mode : Nat} (h : t.Leads folder here mode) (callers : ι → Uploader)
    (order : List ι) (i : ι) {names : List String}
    (hi : (run folder callers t order).stage i = .trying names) :
    Considered folder callers t order here i names := by
  induction order using List.reverseRecOn generalizing names with
  | nil => cases hi
  | append_singleton order j ih =>
    rw [run_concat] at hi
    by_cases hij : i = j
    · subst hij
      rw [stage_step_self] at hi
      have haccounts := accounts_run h callers order
      -- Either the folder was listed just now, or one more name was found to be taken.
      rcases Uploader.trying_of_advance hi with
        ⟨hwaiting, entries, hlist, hnames⟩ | ⟨name, hstage, hcreate⟩
      · refine ⟨order, entries, List.prefix_refl _, hwaiting, hlist, fun name hname => Or.inl ?_⟩
        rwa [hnames]
      · obtain ⟨before, entries, hbefore, hwaiting, hlist, htaken⟩ := (ih hstage).mono [i]
        refine ⟨before, entries, hbefore, hwaiting, hlist, fun name' hname' => ?_⟩
        have hword := haccounts.left i _ hstage name List.mem_cons_self
        obtain ⟨o, ho⟩ := haccounts.leads.create_eq_exists hword.isStep hcreate
        have hthis : WasTaken folder callers t (order ++ [i]) here i name :=
          ⟨order, names, o, List.prefix_refl _, hstage, ho⟩
        rcases htaken name' hname' with hmem | hmem
        · rcases List.mem_cons.1 hmem with rfl | hmem
          · exact Or.inr hthis
          · exact Or.inl hmem
        · exact Or.inr hmem
    · rw [stage_step_of_ne _ hij] at hi
      exact (ih hi).mono [j]

/-- A caller is told that the names are exhausted when none is left. -/
theorem considered_of_exhausted {mode : Nat} (h : t.Leads folder here mode)
    (callers : ι → Uploader) (order : List ι) (i : ι) {place : Path} {base : String}
    (hi : (run folder callers t order).stage i = .done (.error (.namesExhausted place base))) :
    Considered folder callers t order here i [] := by
  induction order using List.reverseRecOn with
  | nil => cases hi
  | append_singleton order j ih =>
    rw [run_concat] at hi
    by_cases hij : i = j
    · subst hij
      rw [stage_step_self] at hi
      rcases Uploader.exhausted_of_advance hi with hstage | ⟨hstage, -, -⟩
      · exact (ih hstage).mono [i]
      · exact (considered_run h callers order i hstage).mono [i]
    · rw [stage_step_of_ne _ hij] at hi
      exact (ih hi).mono [j]

omit [DecidableEq ι] in
/-- A caller has an answer once it is done. -/
theorem answer?_eq_some_iff {w : World ι} {i : ι} {answer : Except StorageError Path} :
    w.answer? i = some answer ↔ w.stage i = .done answer := by
  rw [World.answer?]
  cases w.stage i <;> simp

/-- **Uploads at the same time keep apart.**  However many callers there are, whatever they upload,
and in whatever order they take their steps, no file is shared and none is lost. -/
theorem uploads_keep_apart {mode : Nat} (h : t.Leads folder here mode) (callers : ι → Uploader)
    (order : List ι) : KeepsApart folder callers t order here where
  distinct i j path hi hj :=
    (accounts_run h callers order).distinct i j path (answer?_eq_some_iff.1 hi)
      (answer?_eq_some_iff.1 hj)
  made i path hi := by
    obtain ⟨name, -, hpath, hnone, hat⟩ :=
      (accounts_run h callers order).made i path (answer?_eq_some_iff.1 hi)
    exact ⟨name, hpath, hnone, hat⟩
  only place o ho hnone := by
    obtain ⟨i, name, hi, hplace⟩ := (accounts_run h callers order).only place o ho hnone
    exact ⟨i, name, answer?_eq_some_iff.2 hi, hplace⟩
  kept := (accounts_run h callers order).kept
  exhausted i place base hi := by
    obtain ⟨before, entries, hbefore, hwaiting, hlist, htaken⟩ :=
      considered_of_exhausted h callers order i (answer?_eq_some_iff.1 hi)
    refine ⟨before, entries, hbefore, hwaiting, hlist, fun n hn name hname => ?_⟩
    by_cases hstem : ∃ e ∈ entries, e.stem = name
    · exact Or.inl hstem
    · cases hclaims : Store.claimsReserved (callers i).reserved name with
      | true => exact Or.inr (Or.inl rfl)
      | false =>
        have hmem : name ∈ Store.candidates (callers i).base (callers i).reserved entries := by
          rw [Store.candidates, List.mem_filter, hclaims, hname]
          refine ⟨List.mem_map_of_mem (List.mem_range.2 hn), ?_⟩
          simpa [hname] using hstem
        exact Or.inr (Or.inr ((htaken name hmem).resolve_left (List.not_mem_nil)))

/-! ### Two callers who upload the same list -/

/-- A folder with nothing in it. -/
def nothingThere : Tree where
  entries := [([.text "jobs"], .folder Store.folderMode)]
  home := []

/-- Two callers, with uploads of the same name. -/
def rivals (second : Bool) : Uploader where
  upload := "list.txt"
  base := "list"
  isStem := by decide +kernel
  reserved := []
  now := if second then 1 else 0

/-- Both of them list the folder before either creates a file. -/
def rivalSteps : List Bool :=
  [false, true, false, true, true]

/-- The job root of the example leads to a folder. -/
theorem leads_nothingThere :
    nothingThere.Leads ⟨"/jobs"⟩ [.text "jobs"] Store.folderMode :=
  ⟨by decide, rfl⟩

/-- Two callers for the same name, their steps in turn: the later one gets the name with a two. -/
theorem uploads_keep_apart_rivals :
    nothingThere.Leads ⟨"/jobs"⟩ [.text "jobs"] Store.folderMode ∧
    KeepsApart ⟨"/jobs"⟩ rivals nothingThere rivalSteps [.text "jobs"] ∧
    (run ⟨"/jobs"⟩ rivals nothingThere rivalSteps).answer? false = some (.ok ⟨"/jobs/list"⟩) ∧
    (run ⟨"/jobs"⟩ rivals nothingThere rivalSteps).answer? true = some (.ok ⟨"/jobs/list_2"⟩) :=
  ⟨leads_nothingThere, uploads_keep_apart leads_nothingThere rivals rivalSteps,
    by decide +kernel, by decide +kernel⟩

end Uploads

end JobSpool
