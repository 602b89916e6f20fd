/-
# The first usable name

`create_named_file`: `SPEC_FULL.md`, 4.1 and 9 ("collision-safe naming").

A file that is named after an upload gets the first of the names `base`, `base_2` and so on up to
`base_1000` that is *usable* (`IsUsable`).  A name can be of no use for three reasons, and each is
seen in another way.  A file that a listing shows has it as its stem, so a new job would adopt that
file; a file of the new job would have a reserved name; or something of any kind stands under it,
which the listing need not show.

The first two are tested for every name before any of them is tried, and the third by trying.  If
nothing but a name that is taken is ever refused (`RefusesOnlyTaken`), the name that is found is the
first one that passes all three tests (`find?_candidates_eq_some_iff`), and
`createNamed_first_usable` follows.

Nothing else is refused in a folder where names may come and go, if the names and the paths to them
are short enough (`refusesOnlyTaken_of_short`).
-/

import JobSpool.Proofs.FreeNames
import JobSpool.Proofs.InputNames
import JobSpool.Proofs.Listings
import Mathlib.Data.Nat.Digits.Defs
import Mathlib.Data.Nat.Find

namespace JobSpool

open Files (Tree Place File Object)

/-! ### How long names are -/

namespace Text

/-- A text of characters of one byte has as many bytes as characters. -/
theorem utf8ByteSize_ofList_eq_length {cs : List Char} (h : ∀ c ∈ cs, c.utf8Size = 1) :
    (String.ofList cs).utf8ByteSize = cs.length := by
  induction cs with
  | nil => rfl
  | cons c cs ih =>
    rw [String.ofList_cons, String.utf8ByteSize_append, String.utf8ByteSize_singleton,
      h c List.mem_cons_self, ih fun c' hc' => h c' (List.mem_cons_of_mem _ hc'), List.length_cons,
      Nat.add_comm]

/-- A number has at most as many digits as a power of ten above it has zeros. -/
theorem utf8ByteSize_repr_le {n digits : Nat} (hpos : 0 < digits) (h : n < 10 ^ digits) :
    n.repr.utf8ByteSize ≤ digits := by
  have hdigit : ∀ c ∈ Nat.toDigits 10 n, c.utf8Size = 1 := fun c hc => by
    have hdigit := Nat.isDigit_of_mem_toDigits (b := 10) (by decide) (by decide) hc
    rw [Char.isDigit, Bool.and_eq_true, decide_eq_true_eq, decide_eq_true_eq] at hdigit
    exact Char.utf8Size_eq_one_iff.2 (UInt32.le_trans hdigit.2 (by decide))
  rw [← String.ofList_toList (s := n.repr), Nat.toList_repr, utf8ByteSize_ofList_eq_length hdigit]
  exact Nat.toDigits_length 10 n digits hpos h

end Text

namespace Store

/-! ### The names that can be used -/

/-- Can an input have a name in the folder at a place? -/
structure IsUsable (t : Tree) (place : Place) (reserved : List String) (name : String) : Prop where
  /-- No file that a listing shows has the name as its stem. -/
  adoptsNone : ∀ file f, t.shownFile? place file = some f → (FileName.split file).1 ≠ name
  /-- No file that the job may own has a reserved name. -/
  unreserved : ∀ a ∈ Artifact.owned, a.fileName name ∉ reserved
  /-- Nothing of any kind has the name. -/
  free : t.at? (place ++ [.text name]) = none

/-- Is a number the least one that makes a usable name for an upload? -/
structure IsFirstUsable (t : Tree) (place : Place) (reserved : List String) (base : String)
    (n : Nat) : Prop where
  pos : 1 ≤ n
  le : n ≤ namedAttempts
  usable : IsUsable t place reserved (candidate base n)
  least : ∀ m, 1 ≤ m → m < n → ¬ IsUsable t place reserved (candidate base m)

/-- Is the creation of a file under a name for an upload refused only if the name is taken? -/
def RefusesOnlyTaken (folder : Path) (base : String) (now : Instant) (t : Tree) : Prop :=
  ∀ n, 1 ≤ n → n ≤ namedAttempts → ∀ fault,
    t.create (folder.join (candidate base n)) now = .error fault → fault = .system .exists

/-- An empty file, as it is created. -/
def emptyFile (now : Instant) : File :=
  ⟨ByteArray.empty, Files.fileMode, now⟩

variable {t : Tree} {folder : Path} {place : Place} {mode : Nat} {base : String}
  {reserved : List String} {entries : List Entry} {now : Instant}

/-- **A file is created under the first name that is free.** -/
theorem createFirst_eq_find? (hl : t.Leads folder place mode) {names : List String}
    (hnames : ∀ name ∈ names, Path.IsStep name ∧ ∀ fault,
      t.create (folder.join name) now = .error fault → fault = .system .exists) :
    createFirst folder now t names
      = .ok ((names.find? fun name => (t.at? (place ++ [.text name])).isNone).map fun name =>
          (folder.join name, t.put (place ++ [.text name]) (.file (emptyFile now)))) := by
  induction names with
  | nil => rfl
  | cons name names ih =>
    obtain ⟨hstep, hrefuses⟩ := hnames name List.mem_cons_self
    rw [createFirst_cons]
    cases hcreate : t.create (folder.join name) now with
    | ok t' =>
      obtain ⟨place', mode', hl', -, hfree, -, -, rfl⟩ :=
        Tree.create_eq_ok hl.sound hl.text_ne_nil hstep hcreate
      obtain rfl := hl.place_unique hl'
      rw [List.find?_cons_of_pos (by simp [hfree])]
      rfl
    | error fault =>
      obtain rfl := hrefuses fault hcreate
      obtain ⟨o, ho⟩ := hl.create_eq_exists hstep hcreate
      rw [List.find?_cons_of_neg (by simp [ho])]
      exact ih fun name' hname' => hnames name' (List.mem_cons_of_mem _ hname')

/-! ### The tests of a name -/

/-- A name claims nothing if none of the eight files has a reserved name. -/
theorem claimsReserved_eq_false_iff {name : String} : claimsReserved reserved name = false ↔
    ∀ a ∈ Artifact.owned, a.fileName name ∉ reserved := by
  simp [claimsReserved]

/-- No entry has a stem if no file that is shown has it. -/
theorem any_stem_eq_false_iff (hl : t.Leads folder place mode)
    (hentries : list folder t = .ok entries) {name : String} :
    entries.any (·.stem == name) = false ↔
      ∀ file f, t.shownFile? place file = some f → (FileName.split file).1 ≠ name := by
  rw [List.any_eq_false]
  constructor
  · intro h file f hf
    have hstem := h _ ((mem_list_iff hl hentries).2 ⟨file, f, hf, rfl⟩)
    simpa [Entry.ofName] using hstem
  · intro h e he
    obtain ⟨file, f, hf, rfl⟩ := (mem_list_iff hl hentries).1 he
    simpa [Entry.ofName] using h file f hf

/-- **The usable names** pass the tests of a listing, and are free. -/
theorem isUsable_iff (hl : t.Leads folder place mode) (hentries : list folder t = .ok entries)
    {name : String} : IsUsable t place reserved name ↔
      (!entries.any (·.stem == name) && !claimsReserved reserved name) = true ∧
        (t.at? (place ++ [.text name])).isNone = true := by
  rw [Bool.and_eq_true, Bool.not_eq_true', Bool.not_eq_true', claimsReserved_eq_false_iff,
    any_stem_eq_false_iff hl hentries, Option.isNone_iff_eq_none]
  exact ⟨fun h => ⟨⟨h.adoptsNone, h.unreserved⟩, h.free⟩, fun h => ⟨h.1.1, h.1.2, h.2⟩⟩

/-- The search among the names that are tried is one among the numbers. -/
theorem find?_candidates (hl : t.Leads folder place mode)
    (hentries : list folder t = .ok entries) [DecidablePred (IsUsable t place reserved)] :
    (candidates base reserved entries).find? (fun name => (t.at? (place ++ [.text name])).isNone)
      = ((List.range namedAttempts).find? fun n =>
          decide (IsUsable t place reserved (candidate base (n + 1)))).map
            fun n => candidate base (n + 1) := by
  rw [candidates, List.find?_filter, List.find?_map]
  refine congrArg (Option.map _) (congrArg₂ List.find? (funext fun n => ?_) rfl)
  exact decide_eq_decide.2 (isUsable_iff hl hentries).symm

/-- **The name that is found is the first usable one.** -/
theorem find?_candidates_eq_some_iff (hl : t.Leads folder place mode)
    (hentries : list folder t = .ok entries) {name : String} :
    (candidates base reserved entries).find? (fun name => (t.at? (place ++ [.text name])).isNone)
      = some name ↔ ∃ n, IsFirstUsable t place reserved base n ∧ candidate base n = name := by
  classical
  rw [find?_candidates hl hentries, Option.map_eq_some_iff]
  constructor
  · rintro ⟨n, hn, hname⟩
    obtain ⟨husable, hmem, hleast⟩ := List.find?_range_eq_some.1 hn
    refine ⟨n + 1, ⟨Nat.succ_pos n, List.mem_range.1 hmem, of_decide_eq_true husable,
      fun m hpos hm => ?_⟩, hname⟩
    obtain ⟨k, rfl⟩ := Nat.exists_eq_add_one.2 hpos
    simpa using hleast k (Nat.lt_of_succ_lt_succ hm)
  · rintro ⟨n, h, hname⟩
    obtain ⟨k, rfl⟩ := Nat.exists_eq_add_one.2 h.pos
    refine ⟨k, List.find?_range_eq_some.2 ⟨decide_eq_true h.usable, List.mem_range.2 h.le,
      fun m hm => ?_⟩, hname⟩
    simpa using h.least (m + 1) (Nat.succ_pos m) (Nat.succ_lt_succ hm)

/-- If some name can be used, there is a first one. -/
theorem exists_isFirstUsable
    (h : ∃ n, 1 ≤ n ∧ n ≤ namedAttempts ∧ IsUsable t place reserved (candidate base n)) :
    ∃ n, IsFirstUsable t place reserved base n := by
  classical
  obtain ⟨hpos, hle, husable⟩ := Nat.find_spec h
  refine ⟨Nat.find h, hpos, hle, husable, fun m hm hlt hm' => ?_⟩
  exact Nat.find_min h hlt ⟨hm, (Nat.le_of_lt hlt).trans hle, hm'⟩

/-! ### The file that is created -/

/-- The name that is found is the first candidate that nothing stands under. -/
theorem createNamed_eq (hl : t.Leads folder place mode) (hbase : IsWord base)
    (hentries : list folder t = .ok entries) (hrefuses : RefusesOnlyTaken folder base now t) :
    createNamed folder base reserved now t = orExhausted folder base
      (.ok (((candidates base reserved entries).find? fun name =>
        (t.at? (place ++ [.text name])).isNone).map fun name =>
          (folder.join name, t.put (place ++ [.text name]) (.file (emptyFile now))))) := by
  rw [createNamed, hentries]
  refine congrArg (orExhausted folder base) (createFirst_eq_find? hl fun name hname => ?_)
  rw [candidates, List.mem_filter, List.mem_map] at hname
  obtain ⟨⟨n, hn, rfl⟩, -⟩ := hname
  exact ⟨(isWord_candidate hbase _).isStep,
    hrefuses (n + 1) (Nat.succ_pos n) (List.mem_range.1 hn)⟩

/-- **An upload gets the first usable name.**  Whatever is in the folder, if some of the names that
may be given are usable, exactly one file is new: an empty one, under the usable name with the least
number.  If none is, the call fails for want of names.  Only a folder that cannot be listed is
refused before any name is tried. -/
theorem createNamed_first_usable (hl : t.Leads folder place mode) {upload : String}
    (hbase : FileName.uploadStem upload = some base) (reserved : List String)
    (hrefuses : RefusesOnlyTaken folder base now t) :
    ((Object.folder mode).mayRead = true →
      ((∃ n, 1 ≤ n ∧ n ≤ namedAttempts ∧ IsUsable t place reserved (candidate base n)) →
        ∃ n t', IsFirstUsable t place reserved base n ∧
          createNamed folder base reserved now t = .ok (folder.join (candidate base n), t') ∧
          t'.at? (place ++ [.text (candidate base n)]) = some (.file (emptyFile now)) ∧
          (∀ other, other ≠ place ++ [.text (candidate base n)] → t'.at? other = t.at? other) ∧
          t'.home = t.home) ∧
      ((¬ ∃ n, 1 ≤ n ∧ n ≤ namedAttempts ∧ IsUsable t place reserved (candidate base n)) →
        createNamed folder base reserved now t = .error (.namesExhausted folder base))) ∧
    ((Object.folder mode).mayRead = false →
      createNamed folder base reserved now t = .error (.list folder (.system .denied))) := by
  have hword := FileName.isWord_of_uploadStem hbase
  refine ⟨fun hread => ?_, fun hread => ?_⟩
  · obtain ⟨entries, hentries⟩ := exists_list_eq_ok hl hread
    rw [createNamed_eq hl hword hentries hrefuses]
    constructor
    -- One is usable, so there is a first one, and that is found.
    · intro hsome
      obtain ⟨n, hn⟩ := exists_isFirstUsable hsome
      rw [(find?_candidates_eq_some_iff hl hentries).2 ⟨n, hn, rfl⟩]
      exact ⟨n, _, hn, rfl, Tree.at?_put_self (by simp), fun other hne => Tree.at?_put_of_ne hne,
        Tree.home_put _ _ _⟩
    -- A name that is found would be usable.
    · intro hnone
      have hfind : (candidates base reserved entries).find?
          (fun name => (t.at? (place ++ [.text name])).isNone) = none := by
        rw [Option.eq_none_iff_forall_ne_some]
        intro name hname
        obtain ⟨n, hn, -⟩ := (find?_candidates_eq_some_iff hl hentries).1 hname
        exact hnone ⟨n, hn.pos, hn.le, hn.usable⟩
      rw [hfind]
      rfl
  · simp [createNamed, list, Tree.visit, hl.find, hread]

/-! ### Folders in which only taken names are refused -/

/-- A number takes five bytes at most, with the underscore. -/
theorem utf8ByteSize_candidate_le {n : Nat} (h : n ≤ namedAttempts) :
    (candidate base n).utf8ByteSize ≤ base.utf8ByteSize + 5 := by
  rw [candidate]
  split
  · exact Nat.le_add_right _ _
  · have hnumber : n.repr.utf8ByteSize ≤ 4 :=
      Text.utf8ByteSize_repr_le (by decide) (Nat.lt_of_le_of_lt h (by decide))
    have hbar : "_".utf8ByteSize = 1 := rfl
    rw [String.utf8ByteSize_append, String.utf8ByteSize_append, hbar]
    omega

/-- **Where names may come and go,** only taken ones are refused, if the name of the upload and the
path to it are short enough. -/
theorem refusesOnlyTaken_of_short (hl : t.Leads folder place mode) (hbase : IsWord base)
    (hm : t.mayChange place = true) (hname : base.utf8ByteSize + 5 ≤ Files.nameLimit)
    (hpath : folder.text.utf8ByteSize + base.utf8ByteSize + 6 < Files.pathLimit) (now : Instant) :
    RefusesOnlyTaken folder base now t := by
  intro n _ hle fault hcreate
  have hword := isWord_candidate hbase n
  have hsize : (candidate base n).utf8ByteSize ≤ base.utf8ByteSize + 5 :=
    utf8ByteSize_candidate_le hle
  have hjoin := Path.utf8ByteSize_join_le hl.text_ne_nil hword.isStep
  have hr : Tree.refusal? (folder.join (candidate base n)) = none :=
    Tree.refusal?_join_eq_none (Tree.find_eq_ok_iff.1 hl.find).1 hword.isStep
      (hword.notMem (by decide)) (by omega)
  rw [hl.create_eq ⟨hword.isStep, by omega⟩ hr hm] at hcreate
  split at hcreate
  · exact (Except.error.inj hcreate).symm
  · cases hcreate

/-- A folder in which an older job has a result, and something that is no file has a name. -/
def crowded : Tree where
  entries := [
    ([.text "jobs"], .folder folderMode),
    ([.text "jobs", .text "list.csv"], .file (emptyFile 0)),
    ([.text "jobs", .text ".list_4"], .file (emptyFile 0)),
    ([.text "jobs", .text "list_2"], .folder folderMode)]
  home := []

/-- The folder of the example is there. -/
theorem leads_crowded : crowded.Leads ⟨"/jobs"⟩ [.text "jobs"] folderMode :=
  ⟨by decide, rfl⟩

/-- The first three names are of no use, each for another reason, so the fourth is given. -/
theorem createNamed_first_usable_crowded :
    FileName.uploadStem "list.txt" = some "list" ∧
    RefusesOnlyTaken ⟨"/jobs"⟩ "list" 7 crowded ∧
    (∃ n t', IsFirstUsable crowded [.text "jobs"] ["list_3.mx"] "list" n ∧
      createNamed ⟨"/jobs"⟩ "list" ["list_3.mx"] 7 crowded
        = .ok ((Path.mk "/jobs").join (candidate "list" n), t')) ∧
    (createNamed ⟨"/jobs"⟩ "list" ["list_3.mx"] 7 crowded).toOption.map (·.1)
      = some ⟨"/jobs/list_4"⟩ := by
  have hbase : FileName.uploadStem "list.txt" = some "list" := by decide +kernel
  have hrefuses : RefusesOnlyTaken ⟨"/jobs"⟩ "list" 7 crowded :=
    refusesOnlyTaken_of_short leads_crowded (FileName.isWord_of_uploadStem hbase) (by decide)
      (by decide) (by decide) 7
  have husable : IsUsable crowded [.text "jobs"] ["list_3.mx"] (candidate "list" 4) := by
    obtain ⟨entries, hentries⟩ := exists_list_eq_ok leads_crowded (by decide)
    rw [isUsable_iff leads_crowded hentries, ((list_eq_ok_iff leads_crowded).1 hentries).2]
    decide +kernel
  obtain ⟨hsome, -⟩ := (createNamed_first_usable leads_crowded hbase ["list_3.mx"] hrefuses).1
    (by decide)
  obtain ⟨n, t', hn, hmade, -⟩ := hsome ⟨4, by decide, by decide, husable⟩
  exact ⟨hbase, hrefuses, ⟨n, t', hn, hmade⟩, by decide +kernel⟩

end Store
end JobSpool
