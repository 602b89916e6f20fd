/-
# Files sorted into groups, one by one

`group_by_stem`: `SPEC_FULL.md`, 3, "A job's artifacts always share one filename stem;
classification is by extension".

`JobFiles.groups` takes the stems of a listing first, and then the files of each.  It might as well
take the files one by one, each to the end of the group of its stem (`JobFiles.addEntry`).  Groups
in the order of their stems are determined by the files that each stem has in them
(`JobFiles.eq_of_filesOf`), and one more file changes those of its own stem only
(`JobFiles.filesOf_addEntry`), which is what it does to the listing.

Two files of one group that are the same recognized artifact would have the same name.  So there is
one at most (`JobFiles.IsGroup.countP_artifact_le_one`).  With the correspondence of names and their
parts (`FileName.split_eq_iff`), `JobFiles.names_tell_parts_and_groups` says how a name decides
where its file goes.
-/

import JobSpool.Proofs.Stems

namespace JobSpool
namespace JobFiles

variable {gs gs' : List JobFiles} {s : JobFiles} {entries : List Entry} {e : Entry} {stem : String}

/-! ### Groups, file by file -/

/-- The files that a stem has in some groups. -/
def filesOf (gs : List JobFiles) (stem : String) : List Entry :=
  ((gs.find? (·.stem == stem)).map (·.entries)).getD []

/-- Some groups with one more file: at the end of the group of its stem, or in a group of its own
in front of the first one with a later stem. -/
def addEntry : List JobFiles → Entry → List JobFiles
  | [], e => [⟨e.stem, [e]⟩]
  | s :: more, e =>
    match Text.byteOrder e.stem s.stem with
    | .lt => ⟨e.stem, [e]⟩ :: s :: more
    | .eq => { s with entries := s.entries ++ [e] } :: more
    | .gt => s :: addEntry more e

/-- Are groups in the order of their stems, and is none of them empty? -/
structure AreOrdered (gs : List JobFiles) : Prop where
  ascending : gs.Pairwise fun s s' => Text.byteOrder s.stem s'.stem = .lt
  nonempty : ∀ s ∈ gs, s.entries ≠ []

/-- The files of a stem are those of the first group that has it. -/
theorem filesOf_cons (s : JobFiles) (more : List JobFiles) (stem : String) :
    filesOf (s :: more) stem = if s.stem = stem then s.entries else filesOf more stem := by
  rw [filesOf, List.find?_cons]
  split <;> simp_all [filesOf]

/-- A stem that no group has has no files. -/
theorem filesOf_eq_nil (h : ∀ s ∈ gs, s.stem ≠ stem) : filesOf gs stem = [] := by
  have hnone : gs.find? (·.stem == stem) = none := by simpa using h
  rw [filesOf, hnone]
  rfl

/-- What follows the first of ordered groups is ordered. -/
theorem AreOrdered.of_cons {more : List JobFiles} (h : AreOrdered (s :: more)) :
    AreOrdered more where
  ascending := (List.pairwise_cons.1 h.ascending).2
  nonempty s' hs' := h.nonempty s' (List.mem_cons_of_mem _ hs')

/-- What comes before the first group comes before all. -/
theorem AreOrdered.lt_of_mem {more : List JobFiles} (h : AreOrdered (s :: more))
    (hfirst : Text.byteOrder stem s.stem = .lt) {s' : JobFiles} (hs' : s' ∈ s :: more) :
    Text.byteOrder stem s'.stem = .lt := by
  rcases List.mem_cons.1 hs' with rfl | hs'
  · exact hfirst
  · exact Std.TransCmp.lt_trans hfirst ((List.pairwise_cons.1 h.ascending).1 s' hs')

/-- **A stem has the files of its group.** -/
theorem AreOrdered.filesOf_of_mem (h : AreOrdered gs) (hs : s ∈ gs) :
    filesOf gs s.stem = s.entries := by
  induction gs with
  | nil => cases hs
  | cons first more ih =>
    rw [filesOf_cons]
    rcases List.mem_cons.1 hs with rfl | hs
    · exact if_pos rfl
    · rw [if_neg (Text.ne_of_byteOrder_lt ((List.pairwise_cons.1 h.ascending).1 s hs))]
      exact ih h.of_cons hs

/-- Among ordered groups, a group is known from the files of its stem. -/
theorem AreOrdered.mem_iff (h : AreOrdered gs) :
    s ∈ gs ↔ s.entries ≠ [] ∧ filesOf gs s.stem = s.entries := by
  refine ⟨fun hs => ⟨h.nonempty s hs, h.filesOf_of_mem hs⟩, ?_⟩
  rintro ⟨hne, hfiles⟩
  have hfound : ∃ s' ∈ gs, s'.stem = s.stem := by
    by_contra hnone
    push Not at hnone
    exact hne (hfiles ▸ filesOf_eq_nil hnone)
  obtain ⟨s', hs', hstem⟩ := hfound
  have hsame : s' = s := by
    have hentries := h.filesOf_of_mem hs'
    rw [hstem, hfiles] at hentries
    cases s
    cases s'
    simp_all
  exact hsame ▸ hs'

/-- **Ordered groups are determined by the files that each stem has.** -/
theorem eq_of_filesOf (h : AreOrdered gs) (h' : AreOrdered gs')
    (hsame : ∀ stem, filesOf gs stem = filesOf gs' stem) : gs = gs' := by
  have hnodup : ∀ {gs : List JobFiles}, AreOrdered gs → gs.Nodup := fun h =>
    h.ascending.imp fun hlt heq => Text.ne_of_byteOrder_lt hlt (congrArg JobFiles.stem heq)
  refine List.Perm.eq_of_pairwise (fun s s' _ _ hlt hgt => ?_) h.ascending h'.ascending
    ((List.perm_ext_iff_of_nodup (hnodup h) (hnodup h')).2 fun s => ?_)
  · exact absurd hgt (Std.OrientedCmp.not_lt_of_lt hlt)
  · rw [h.mem_iff, h'.mem_iff, hsame]

/-- **One more file** comes last among the files of its stem, and changes no others. -/
theorem AreOrdered.filesOf_addEntry (h : AreOrdered gs) (e : Entry) (stem : String) :
    filesOf (addEntry gs e) stem
      = if e.stem = stem then filesOf gs stem ++ [e] else filesOf gs stem := by
  induction gs with
  | nil =>
    rw [addEntry, filesOf_cons]
    rfl
  | cons s more ih =>
    rw [addEntry]
    cases hc : Text.byteOrder e.stem s.stem with
    | lt =>
      -- All groups come after the new one, so the stem had no files.
      have hnew : e.stem = stem → filesOf (s :: more) stem = [] := by
        rintro rfl
        exact filesOf_eq_nil fun s' hs' => (Text.ne_of_byteOrder_lt (h.lt_of_mem hc hs')).symm
      dsimp only
      rw [filesOf_cons]
      split
      · rename_i hstem
        rw [hnew hstem]
        rfl
      · rfl
    | eq =>
      have hstem : e.stem = s.stem := Std.LawfulEqCmp.eq_of_compare hc
      dsimp only
      rw [filesOf_cons, filesOf_cons, hstem]
      split <;> rfl
    | gt =>
      have hstem : s.stem ≠ e.stem := Text.ne_of_byteOrder_lt (Std.OrientedCmp.gt_iff_lt.1 hc)
      dsimp only
      rw [filesOf_cons, filesOf_cons, ih h.of_cons]
      split
      · rename_i hs
        rw [if_neg fun he => hstem (hs.trans he.symm)]
      · rfl

/-- One more file adds no stem but its own. -/
theorem stem_of_mem_addEntry (h : s ∈ addEntry gs e) :
    s.stem = e.stem ∨ ∃ s' ∈ gs, s'.stem = s.stem := by
  induction gs with
  | nil => simp_all [addEntry]
  | cons first more ih =>
    rw [addEntry] at h
    split at h
    · rcases List.mem_cons.1 h with rfl | h
      · exact Or.inl rfl
      · exact Or.inr ⟨s, h, rfl⟩
    · rcases List.mem_cons.1 h with rfl | h
      · exact Or.inr ⟨first, List.mem_cons_self, rfl⟩
      · exact Or.inr ⟨s, List.mem_cons_of_mem _ h, rfl⟩
    · rcases List.mem_cons.1 h with rfl | h
      · exact Or.inr ⟨s, List.mem_cons_self, rfl⟩
      · exact (ih h).imp_right fun ⟨s', hs', hstem⟩ => ⟨s', List.mem_cons_of_mem _ hs', hstem⟩

/-- **Groups stay in order** when a file is added. -/
theorem AreOrdered.addEntry (h : AreOrdered gs) (e : Entry) : AreOrdered (addEntry gs e) := by
  induction gs with
  | nil => exact ⟨List.pairwise_singleton _ _, by simp [JobFiles.addEntry]⟩
  | cons s more ih =>
    obtain ⟨hfirst, hmore⟩ := List.pairwise_cons.1 h.ascending
    rw [JobFiles.addEntry]
    cases hc : Text.byteOrder e.stem s.stem with
    | lt =>
      refine ⟨List.pairwise_cons.2 ⟨fun s' hs' => h.lt_of_mem hc hs', h.ascending⟩,
        fun s' hs' => ?_⟩
      rcases List.mem_cons.1 hs' with rfl | hs'
      · exact List.cons_ne_nil _ _
      · exact h.nonempty s' hs'
    | eq =>
      refine ⟨List.pairwise_cons.2 ⟨hfirst, hmore⟩, fun s' hs' => ?_⟩
      rcases List.mem_cons.1 hs' with rfl | hs'
      · exact List.append_ne_nil_of_right_ne_nil _ (List.cons_ne_nil _ _)
      · exact h.nonempty s' (List.mem_cons_of_mem _ hs')
    | gt =>
      have hrest := ih h.of_cons
      refine ⟨List.pairwise_cons.2 ⟨fun s' hs' => ?_, hrest.ascending⟩, fun s' hs' => ?_⟩
      · rcases stem_of_mem_addEntry hs' with hstem | ⟨s'', hs'', hstem⟩
        · rw [hstem]
          exact Std.OrientedCmp.gt_iff_lt.1 hc
        · rw [← hstem]
          exact hfirst s'' hs''
      · rcases List.mem_cons.1 hs' with rfl | hs'
        · exact h.nonempty s' List.mem_cons_self
        · exact hrest.nonempty s' hs'

/-- The groups of a listing are ordered by their stems. -/
theorem areOrdered_groups (entries : List Entry) : AreOrdered (groups entries) where
  ascending := by
    rw [groups_eq, List.pairwise_map]
    exact Text.pairwise_sortNames (nodup_eraseDups _)
  nonempty s hs := by
    obtain ⟨hstem, hgroup⟩ := mem_groups.1 hs
    obtain ⟨e, he, hes⟩ := mem_stems.1 hstem
    rw [hgroup]
    exact List.ne_nil_of_mem (mem_group.2 ⟨he, hes⟩)

/-- A stem has the files of the listing with that stem, in the order of the listing. -/
theorem filesOf_groups (entries : List Entry) (stem : String) :
    filesOf (groups entries) stem = entries.filter (·.stem == stem) := by
  by_cases hstem : stem ∈ stems entries
  · exact (areOrdered_groups entries).filesOf_of_mem (s := group entries stem)
      (mem_groups.2 ⟨hstem, rfl⟩)
  · have hnone : ∀ s ∈ groups entries, s.stem ≠ stem := by
      rintro s hs rfl
      exact hstem (mem_groups.1 hs).1
    rw [filesOf_eq_nil hnone, eq_comm, List.filter_eq_nil_iff]
    exact fun e he hes => hstem (mem_stems.2 ⟨e, he, beq_iff_eq.1 hes⟩)

/-- **One more file of a listing** is one more file of the groups, -/
theorem groups_concat (entries : List Entry) (e : Entry) :
    groups (entries ++ [e]) = addEntry (groups entries) e := by
  have hordered := areOrdered_groups entries
  refine eq_of_filesOf (areOrdered_groups _) (hordered.addEntry e) fun stem => ?_
  rw [hordered.filesOf_addEntry, filesOf_groups, filesOf_groups, List.filter_append]
  split <;> simp_all

/-- **so the groups are made file by file.** -/
theorem groups_append (entries more : List Entry) :
    groups (entries ++ more) = more.foldl addEntry (groups entries) := by
  induction more generalizing entries with
  | nil => rw [List.append_nil, List.foldl_nil]
  | cons e more ih =>
    rw [List.foldl_cons, ← groups_concat, ← ih, List.append_assoc, List.singleton_append]

/-- The groups of a listing are made by taking its files one by one. -/
theorem groups_eq_foldl (entries : List Entry) : groups entries = entries.foldl addEntry [] := by
  have hnone : groups [] = [] := by simp [groups, Text.sortNames]
  rw [← hnone, ← groups_append, List.nil_append]

/-! ### What a group holds -/

/-- **A recognized artifact is in a group once at most.** -/
theorem IsGroup.countP_artifact_le_one (hs : s.IsGroup) {a : Artifact} (ha : a ≠ .unrecognized) :
    s.entries.countP (·.artifact == a) ≤ 1 := by
  have hdistinct : ((s.entries.filter (·.artifact == a)).map (·.fileName)).Nodup :=
    hs.distinct.sublist (List.filter_sublist.map _)
  have hname : ∀ name ∈ (s.entries.filter (·.artifact == a)).map (·.fileName),
      name = a.fileName s.stem := by
    intro name hmem
    obtain ⟨e, he, rfl⟩ := List.mem_map.1 hmem
    obtain ⟨hmem, hartifact⟩ := List.mem_filter.1 he
    rw [Entry.fileName_of_artifact ha (beq_iff_eq.1 hartifact), hs.stem e hmem]
  rw [List.eq_replicate_iff.2 ⟨rfl, hname⟩, List.nodup_replicate, List.length_map] at hdistinct
  rwa [List.countP_eq_length_filter]

/-- **Every file is in the group of its stem,** and in no other. -/
theorem existsUnique_mem_groups (he : e ∈ entries) :
    ∃! s, s ∈ groups entries ∧ e ∈ s.entries := by
  refine ⟨group entries e.stem, ⟨mem_groups.2 ⟨mem_stems.2 ⟨e, he, rfl⟩, rfl⟩,
    mem_group.2 ⟨he, rfl⟩⟩, ?_⟩
  rintro s ⟨hs, hes⟩
  have hgroup := (mem_groups.1 hs).2
  rw [hgroup] at hes
  rw [(mem_group.1 hes).2, ← hgroup]

/-- **A name tells its parts, and the parts tell the group.**  Names and their parts correspond one
to one, in both directions.  So the files of a listing without two of one name are sorted into the
groups of their stems one by one; each of them is in one group, among the others in their order,
and no group has two files that are the same recognized artifact. -/
theorem names_tell_parts_and_groups :
    (∀ name stem extension, FileName.split name = (stem, extension) ↔
      FileName.AreParts stem extension ∧ FileName.ofParts stem extension = name) ∧
    (∀ name (e : Entry), FileName.split name = (e.stem, e.extension) → e.fileName = name) ∧
    (∀ name name', FileName.split name = FileName.split name' → name = name') ∧
    (∀ stem extension : String, stem ≠ "" → '.' ∉ extension.toList →
      FileName.split (stem ++ "." ++ extension) = (stem, some extension)) ∧
    ∀ entries : List Entry, (entries.map (·.fileName)).Nodup →
      groups entries = entries.foldl addEntry [] ∧
      (∀ e ∈ entries, ∃! s, s ∈ groups entries ∧ e ∈ s.entries) ∧
      ((groups entries).flatMap (·.entries)).Perm entries ∧
      ∀ s ∈ groups entries, (∀ e, e ∈ s.entries ↔ e ∈ entries ∧ e.stem = s.stem) ∧
        s.entries.Sublist entries ∧
        ∀ a, a ≠ Artifact.unrecognized → s.entries.countP (·.artifact == a) ≤ 1 := by
  refine ⟨fun _ _ _ => FileName.split_eq_iff, fun name e h => (FileName.split_eq_iff.1 h).2,
    fun _ _ h => FileName.split_injective h, fun _ _ hs he => FileName.split_ofParts hs he,
    fun entries hnames => ⟨groups_eq_foldl entries, fun e he => existsUnique_mem_groups he,
      flatMap_groups_perm hnames.of_map, fun s hs => ?_⟩⟩
  have hgroup := (mem_groups.1 hs).2
  refine ⟨fun e => ?_, ?_, fun a ha => ?_⟩
  · rw [hgroup]
    exact mem_group
  · rw [hgroup]
    exact List.filter_sublist
  · rw [hgroup]
    exact (isGroup_group hnames _).countP_artifact_le_one ha

/-- Files whose names have dots in front, at the end, and one behind the other. -/
def dotted : List Entry :=
  ["a.b.csv", ".a", "a.", "a.b", "a..csv", "a.b.log", "..a"].map fun name =>
    .ofName name ⟨name⟩ none

/-- Seven names with dots in all places, and the five groups that they make. -/
theorem names_tell_parts_and_groups_dotted :
    FileName.split ("a." ++ "." ++ "csv") = ("a.", some "csv") ∧
    (dotted.map (·.fileName)).Nodup ∧
    (groups dotted).map (fun s => (s.stem, s.entries.map (·.fileName)))
      = [(".", ["..a"]), (".a", [".a"]), ("a", ["a.", "a.b"]), ("a.", ["a..csv"]),
        ("a.b", ["a.b.csv", "a.b.log"])] ∧
    ((groups dotted).flatMap (·.entries)).Perm dotted ∧
    (∃! s, s ∈ groups dotted ∧ .ofName "a.b.csv" ⟨"a.b.csv"⟩ none ∈ s.entries) ∧
    ∀ s ∈ groups dotted, s.entries.countP (·.artifact == .csv) ≤ 1 := by
  have hnames : (dotted.map (·.fileName)).Nodup := by decide
  obtain ⟨-, -, -, hsplit, hgroups⟩ := names_tell_parts_and_groups
  obtain ⟨hfold, hone, hperm, heach⟩ := hgroups dotted hnames
  refine ⟨hsplit "a." "csv" (by decide) (by decide), hnames, ?_, hperm,
    hone _ List.mem_cons_self, fun s hs => (heach s hs).2.2 .csv (by decide)⟩
  rw [hfold]
  decide

end JobFiles
end JobSpool
