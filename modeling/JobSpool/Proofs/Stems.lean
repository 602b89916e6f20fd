/-
# Stems, and files grouped by them

Cutting a name at its last dot undoes putting a stem and an extension together
(`split_ofParts`), as long as the stem is not empty and the extension has no dot.  A name
without a dot behind its first character is not cut.  With that, names and their parts
correspond one to one (`split_eq_iff`).  So a stem and a recognized artifact name one file
(`fileName_of_artifact`), and in a group of files with distinct names, an artifact is there
exactly if some file is that artifact (`IsGroup.get?_eq_some_iff`).

The groups of a listing have distinct stems (`nodup_stems`) and hold each file of the listing
once (`flatMap_groups_perm`): no file is lost, and none is counted twice.
-/

import JobSpool.JobFiles
import JobSpool.Proofs.NameOrder
import Mathlib.Data.List.Nodup
import Mathlib.Data.List.Perm.Basic
import Mathlib.Data.List.TakeWhile

namespace JobSpool

namespace FileName

/-- There is no dot in the characters from the other end, either. -/
theorem ne_dot_of_mem_reverse {cs : List Char} (h : '.' ∉ cs) :
    ∀ c ∈ cs.reverse, (c != '.') = true := by
  intro c hc
  rw [bne_iff_ne]
  rintro rfl
  exact h (List.mem_reverse.1 hc)

/-- What stands before the last dot is the stem, -/
theorem stemChars_append_dot (a : List Char) {b : List Char} (hb : '.' ∉ b) :
    stemChars (a ++ '.' :: b) = a := by
  rw [stemChars, List.reverse_append, List.reverse_cons, List.append_assoc,
    List.dropWhile_append_of_pos (ne_dot_of_mem_reverse hb)]
  simp

/-- and what stands behind it the extension. -/
theorem extensionChars_append_dot (a : List Char) {b : List Char} (hb : '.' ∉ b) :
    extensionChars (a ++ '.' :: b) = b := by
  rw [extensionChars, List.reverse_append, List.reverse_cons, List.append_assoc,
    List.takeWhile_append_of_pos (ne_dot_of_mem_reverse hb)]
  simp

/-- **A name is all stem** if it has no dot behind its first character. -/
theorem stemChars_eq_nil_iff {cs : List Char} : stemChars cs = [] ↔ '.' ∉ cs.tail := by
  constructor
  · intro hnil hdot
    cases cs with
    | nil => cases hdot
    | cons c rest =>
      -- The first dot from behind is the one that the name is cut at.
      obtain ⟨back, front, hrev, hback⟩ := List.eq_append_cons_of_mem (List.mem_reverse.2 hdot)
      have hrest : c :: rest = (c :: front.reverse) ++ '.' :: back.reverse := by
        have := congrArg List.reverse hrev
        simp_all
      rw [hrest, stemChars_append_dot _ (by simpa using hback)] at hnil
      cases hnil
  · intro hdot
    by_contra hne
    have hcut := stemChars_append hne
    cases hstem : stemChars cs with
    | nil => exact hne hstem
    | cons c front =>
      rw [hstem] at hcut
      rw [← hcut] at hdot
      simp at hdot

/-- An extension has no dot. -/
theorem dot_notMem_extensionChars (cs : List Char) : '.' ∉ extensionChars cs := by
  intro h
  have hne := List.all_eq_true.1 List.all_takeWhile '.' (List.mem_reverse.1 h)
  exact absurd hne (by decide)

/-- **A stem and an extension are told apart again,** if the extension has no dot. -/
theorem split_ofParts {stem : String} (hs : stem ≠ "") {extension : String}
    (he : '.' ∉ extension.toList) :
    split (ofParts stem (some extension)) = (stem, some extension) := by
  have hchars : (ofParts stem (some extension)).toList
      = stem.toList ++ '.' :: extension.toList := by
    simp [ofParts]
  rw [split, hchars, stemChars_append_dot _ he, extensionChars_append_dot _ he, if_neg]
  · simp
  · simpa using hs

/-- Are a stem and an extension, if there is one, what a name is cut into? -/
def AreParts (stem : String) : Option String → Prop
  | none => '.' ∉ stem.toList.tail
  | some extension => stem ≠ "" ∧ '.' ∉ extension.toList

/-- **Names and their parts correspond one to one.** -/
theorem split_eq_iff {name stem : String} {extension : Option String} :
    split name = (stem, extension) ↔ AreParts stem extension ∧ ofParts stem extension = name := by
  constructor
  · intro h
    have hname : ofParts stem extension = name := by simpa [h] using ofParts_split name
    refine ⟨?_, hname⟩
    rw [split] at h
    split at h
    · rename_i hnil
      cases h
      exact stemChars_eq_nil_iff.1 hnil
    · rename_i hne
      cases h
      exact ⟨by simpa using hne, by simpa using dot_notMem_extensionChars name.toList⟩
  · rintro ⟨hparts, rfl⟩
    cases extension with
    | none => rw [ofParts, split, if_pos (stemChars_eq_nil_iff.2 hparts)]
    | some extension => exact split_ofParts hparts.1 hparts.2

/-- Different names are cut into different parts. -/
theorem split_injective : Function.Injective split :=
  Function.LeftInverse.injective (g := fun parts : String × Option String =>
    ofParts parts.1 parts.2) ofParts_split

/-- **A name without a dot is all stem.** -/
theorem split_of_notMem {name : String} (h : '.' ∉ name.toList) : split name = (name, none) :=
  split_eq_iff.2 ⟨fun hdot => h (List.mem_of_mem_tail hdot), rfl⟩

/-- A name that is not empty has a stem that is not. -/
theorem split_fst_ne_empty {name : String} (h : name ≠ "") : (split name).1 ≠ "" := by
  unfold split
  split
  · exact h
  · rename_i hs
    simpa using hs

/-- **A name begins with its stem.** -/
theorem fst_split_prefix (name : String) : (split name).1.toList <+: name.toList := by
  have hparts := ofParts_split name
  cases hext : (split name).2 with
  | none =>
    rw [hext, ofParts] at hparts
    exact ⟨[], by rw [hparts, List.append_nil]⟩
  | some extension =>
    rw [hext, ofParts, String.append_assoc] at hparts
    refine ⟨("." ++ extension).toList, ?_⟩
    rw [← String.toList_append, hparts]

/-- So they begin alike. -/
theorem head?_fst_split (name : String) :
    (split name).1.toList.head? = name.toList.head? := by
  by_cases hname : name = ""
  · subst hname
    rfl
  · obtain ⟨more, hmore⟩ := fst_split_prefix name
    have hstem : (split name).1.toList ≠ [] := fun h =>
      split_fst_ne_empty hname (String.toList_eq_nil_iff.1 h)
    rw [← hmore, List.head?_append_of_ne_nil _ hstem]

/-- **A name is plain** if it is visible and has none of three characters. -/
theorem isPlain_iff {name : String} : isPlain name = true ↔
    (name ≠ "" ∧ name.toList.head? ≠ some '.' ∧ '/' ∉ name.toList) ∧
      '\\' ∉ name.toList ∧ '\x00' ∉ name.toList := by
  have hseparators : ∀ cs : List Char, cs.any isSeparator = false ↔
      '/' ∉ cs ∧ '\\' ∉ cs ∧ '\x00' ∉ cs := by
    intro cs
    simp only [List.any_eq_false, isSeparator, Bool.or_eq_true, decide_eq_true_eq, not_or]
    constructor
    · intro h
      exact ⟨fun hmem => (h _ hmem).1.1 rfl, fun hmem => (h _ hmem).1.2 rfl,
        fun hmem => (h _ hmem).2 rfl⟩
    · rintro ⟨hslash, hback, hnull⟩ c hc
      exact ⟨⟨fun h => hslash (h ▸ hc), fun h => hback (h ▸ hc)⟩, fun h => hnull (h ▸ hc)⟩
  rw [isPlain]
  split
  · rename_i hname
    simp [String.toList_eq_nil_iff.1 hname]
  · rename_i first rest hname
    have hne : name ≠ "" := by
      rintro rfl
      cases hname
    rw [Bool.and_eq_true, bne_iff_ne, Bool.not_eq_true', hseparators, hname, List.head?_cons]
    simp only [hne, ne_eq, Option.some.injEq, not_false_eq_true, true_and, and_assoc]

end FileName

namespace Artifact

/-- **A job may own every file that is recognized.** -/
theorem mem_owned_iff {a : Artifact} : a ∈ owned ↔ a ≠ unrecognized := by
  cases a <;> decide

/-- A recognized artifact is known by its extension. -/
theorem ofExtension_eq_iff {a : Artifact} (ha : a ≠ unrecognized) {extension : Option String} :
    ofExtension extension = a ↔ extension = a.extension := by
  constructor
  · rintro rfl
    unfold ofExtension at ha ⊢
    split <;> first | rfl | simp_all
  · rintro rfl
    exact ofExtension_extension ha

/-- **The files of a job are told apart again** by stem and artifact, the input aside. -/
theorem split_fileName {stem : String} (hs : stem ≠ "") {a : Artifact} (ha : a ≠ unrecognized)
    (hi : a ≠ input) : FileName.split (a.fileName stem) = (stem, a.extension) := by
  cases a with
  | input => exact absurd rfl hi
  | unrecognized => exact absurd rfl ha
  | _ => exact FileName.split_ofParts hs (by decide)

end Artifact

namespace Entry

/-- **A stem and a recognized artifact name one file.** -/
theorem fileName_of_artifact {e : Entry} {a : Artifact} (ha : a ≠ .unrecognized)
    (he : e.artifact = a) : e.fileName = a.fileName e.stem := by
  rw [artifact, Artifact.ofExtension_eq_iff ha] at he
  rw [fileName, he, Artifact.fileName]

end Entry

namespace JobFiles

/-- Do files have the stem of their group, and each a name of its own? -/
structure IsGroup (s : JobFiles) : Prop where
  stem : ∀ e ∈ s.entries, e.stem = s.stem
  distinct : (s.entries.map (·.fileName)).Nodup

/-- Some files of a group are a group. -/
theorem IsGroup.filter {s : JobFiles} (hs : s.IsGroup) (p : Entry → Bool) :
    IsGroup { s with entries := s.entries.filter p } where
  stem e he := hs.stem e (List.mem_of_mem_filter he)
  distinct := hs.distinct.sublist (List.filter_sublist.map _)

/-- An artifact is there if some file is it. -/
theorem has_iff {s : JobFiles} {a : Artifact} :
    s.has a = true ↔ ∃ e ∈ s.entries, e.artifact = a := by
  simp [has, get?]

/-- **An artifact is there if some file is it,** and then it is that file. -/
theorem IsGroup.get?_eq_some_iff {s : JobFiles} (hs : s.IsGroup) {a : Artifact}
    (ha : a ≠ .unrecognized) {e : Entry} :
    s.get? a = some e ↔ e ∈ s.entries ∧ e.artifact = a := by
  constructor
  · intro h
    exact ⟨List.mem_of_find?_eq_some h, by simpa using List.find?_some h⟩
  · rintro ⟨hmem, he⟩
    obtain ⟨e', he'⟩ : ∃ e', s.get? a = some e' := by
      rw [get?, ← Option.isSome_iff_exists, List.find?_isSome]
      exact ⟨e, hmem, by simpa using he⟩
    have hmem' : e' ∈ s.entries := List.mem_of_find?_eq_some he'
    have ha' : e'.artifact = a := by simpa using List.find?_some he'
    have hname : e'.fileName = e.fileName := by
      rw [Entry.fileName_of_artifact ha ha', Entry.fileName_of_artifact ha he, hs.stem e' hmem',
        hs.stem e hmem]
    rw [he', List.inj_on_of_nodup_map hs.distinct hmem' hmem hname]

/-! ### The groups of a listing -/

/-- The stems of a listing. -/
def stems (entries : List Entry) : List String :=
  Text.sortNames (entries.map (·.stem)).eraseDups

/-- The files of a listing that have a stem. -/
def group (entries : List Entry) (stem : String) : JobFiles :=
  ⟨stem, entries.filter (·.stem == stem)⟩

/-- The groups of a listing are those of its stems. -/
theorem groups_eq (entries : List Entry) :
    groups entries = (stems entries).map (group entries) := rfl

/-- A list without its repetitions has none. -/
theorem nodup_eraseDups {α : Type} [BEq α] [LawfulBEq α] : (items : List α) →
    items.eraseDups.Nodup
  | [] => by simp
  | a :: items => by
    rw [List.eraseDups_cons, List.nodup_cons]
    exact ⟨by simp, nodup_eraseDups _⟩
termination_by items => items.length
decreasing_by exact Nat.lt_succ_of_le (List.length_filter_le _ _)

/-- **Every stem has one group.** -/
theorem nodup_stems (entries : List Entry) : (stems entries).Nodup :=
  (Text.perm_sortNames _).nodup_iff.2 (nodup_eraseDups _)

/-- The stems of a listing are those of its files. -/
theorem mem_stems {entries : List Entry} {stem : String} :
    stem ∈ stems entries ↔ ∃ e ∈ entries, e.stem = stem := by
  rw [stems, (Text.perm_sortNames _).mem_iff, List.mem_eraseDups, List.mem_map]

/-- The group of a stem has the files with that stem. -/
theorem mem_group {entries : List Entry} {stem : String} {e : Entry} :
    e ∈ (group entries stem).entries ↔ e ∈ entries ∧ e.stem = stem := by
  simp [group]

/-- Files with different names make a group for each stem. -/
theorem isGroup_group {entries : List Entry} (h : (entries.map (·.fileName)).Nodup)
    (stem : String) : (group entries stem).IsGroup where
  stem _ he := (mem_group.1 he).2
  distinct := h.sublist (List.filter_sublist.map _)

/-- A group of a listing is the one of its stem. -/
theorem mem_groups {entries : List Entry} {s : JobFiles} :
    s ∈ groups entries ↔ s.stem ∈ stems entries ∧ s = group entries s.stem := by
  rw [groups_eq, List.mem_map]
  constructor
  · rintro ⟨stem, hstem, rfl⟩
    exact ⟨hstem, rfl⟩
  · rintro ⟨hstem, hs⟩
    exact ⟨s.stem, hstem, hs.symm⟩

/-- **Every file is in one group,** and in it once. -/
theorem flatMap_groups_perm {entries : List Entry} (h : entries.Nodup) :
    ((groups entries).flatMap (·.entries)).Perm entries := by
  rw [groups_eq, List.flatMap_map, List.perm_ext_iff_of_nodup _ h]
  · intro e
    rw [List.mem_flatMap]
    constructor
    · rintro ⟨stem, -, he⟩
      exact (mem_group.1 he).1
    · intro he
      exact ⟨e.stem, mem_stems.2 ⟨e, he, rfl⟩, mem_group.2 ⟨he, rfl⟩⟩
  · rw [List.nodup_flatMap]
    refine ⟨fun stem _ => h.filter _, (nodup_stems entries).imp ?_⟩
    intro stem stem' hne e he he'
    exact hne ((mem_group.1 he).2.symm.trans (mem_group.1 he').2)

end JobFiles
end JobSpool
