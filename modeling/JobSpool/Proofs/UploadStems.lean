/-
# The stems of uploads

`upload_stem`: `SPEC_FULL.md`, 4.3, "must use a collision-safe destination name".

The name of an upload may be any text, a path as well.  What counts of it is the name at the end of
the path (`Path.EndsIn`), less its extension (`stemOf_eq_some_iff`).  The stem that is made of it is
*safe* (`IsSafe`): letters, digits, hyphens and underscores, but no underscore at either end.

The safe names are those that are their own stems (`uploadStem_eq_self_iff`), so nothing is
gained by reducing a name twice.  And a safe name stays one stem when a number is added to it
and when its job's files are named after it.

Nothing is left of a name exactly if there was nothing in its stem that could stand at the end of a
safe name (`uploadStem_eq_none_iff`).
-/

import JobSpool.Proofs.UploadedJobs
import Mathlib.Data.List.DropRight

namespace JobSpool

namespace Path

/-! ### The name at the end of a path -/

/-- Does a path end in a name?  The pieces behind it say nothing: they are empty, or single dots. -/
def EndsIn (p : Path) (name : String) : Prop :=
  IsStep name ∧ ∃ front back, pieces p.text.toList = front ++ name.toList :: back ∧
    ∀ piece ∈ back, piece = [] ∨ piece = ['.']

/-- A step down is the name between its slashes. -/
theorem ofPiece?_eq_down_iff {piece : List Char} {name : String} :
    Step.ofPiece? piece = some (.down name) ↔
      piece = name.toList ∧ Step.ofPiece? name.toList = some (.down name) := by
  constructor
  · intro h
    have hname : piece = name.toList := by
      unfold Step.ofPiece? at h
      split at h
      · cases h
      · cases h
      · cases h
      · cases h
        rw [String.toList_ofList]
    exact ⟨hname, hname ▸ h⟩
  · rintro ⟨rfl, h⟩
    exact h

/-- A step that stays is never the last that counts. -/
theorem getLast?_trail_eq_down_iff {p : Path} {name : String} :
    p.trail.getLast? = some (.down name) ↔
      (p.steps.filter (· != .stay)).getLast? = some (.down name) := by
  rw [trail]
  split
  · rw [List.getLast?_cons]
    cases (p.steps.filter (· != .stay)).getLast? <;> simp
  · rfl

/-- **The name at the end of a path** is the last piece that says where to go, if it goes down. -/
theorem fileName_eq_some_iff {p : Path} {name : String} :
    p.fileName = some name ↔ p.EndsIn name := by
  have hname : p.fileName = some name ↔ p.trail.getLast? = some (.down name) := by
    unfold fileName
    split
    · rename_i hlast
      rw [hlast]
      simp
    · rename_i hlast
      simp only [reduceCtorEq, false_iff]
      exact hlast name
  -- The pieces are looked at from the end: the first that is no pause has to be the name.
  have hdown : ∀ piece, ((Step.ofPiece? piece).filter (· != .stay)) = some (.down name) ↔
      piece = name.toList ∧ Step.ofPiece? name.toList = some (.down name) := by
    intro piece
    rw [Option.filter_eq_some_iff, ofPiece?_eq_down_iff]
    simp
  have hnone : ∀ piece, ((Step.ofPiece? piece).filter (· != .stay)) = none ↔
      piece = [] ∨ piece = ['.'] := by
    intro piece
    unfold Step.ofPiece?
    split <;> simp_all
  rw [hname, getLast?_trail_eq_down_iff, steps, List.filter_filterMap, List.getLast?_filterMap,
    List.findSome?_eq_some_iff]
  simp only [hdown, hnone]
  constructor
  · rintro ⟨back, piece, front, hpieces, ⟨rfl, hstep⟩, hback⟩
    have hsplit : pieces p.text.toList = front.reverse ++ name.toList :: back.reverse := by
      rw [← List.reverse_inj, hpieces]
      simp
    have hpiece : name.toList ∈ pieces p.text.toList := by
      rw [hsplit]
      simp
    exact ⟨⟨hstep, slash_notMem_of_mem_pieces hpiece⟩, front.reverse, back.reverse, hsplit,
      fun piece hpiece => hback piece (List.mem_reverse.1 hpiece)⟩
  · rintro ⟨⟨hstep, -⟩, front, back, hpieces, hback⟩
    refine ⟨back.reverse, name.toList, front.reverse, ?_, ⟨rfl, hstep⟩,
      fun piece hpiece => hback piece (List.mem_reverse.1 hpiece)⟩
    rw [hpieces]
    simp

/-- One name is a path that ends in it. -/
theorem IsStep.endsIn {name : String} (h : IsStep name) : EndsIn ⟨name⟩ name :=
  ⟨h, [], [], pieces_eq_singleton h.2, by simp⟩

end Path

namespace FileName

/-- **The stem at the end of a path** is what its last name has in front of the extension. -/
theorem stemOf_eq_some_iff {p : Path} {stem : String} :
    stemOf p = some stem ↔ ∃ name, p.EndsIn name ∧ (split name).1 = stem := by
  rw [stemOf, Option.map_eq_some_iff]
  exact exists_congr fun name => and_congr_left fun _ => Path.fileName_eq_some_iff

/-! ### Underscores at the ends -/

/-- The underscores are dropped at the front, and then at the end. -/
theorem trimUnderscores_eq (cs : List Char) :
    trimUnderscores cs = (cs.dropWhile (· == '_')).rdropWhile (· == '_') :=
  rfl

/-- What is left does not start with an underscore. -/
theorem head?_dropWhile_ne (cs : List Char) : (cs.dropWhile (· == '_')).head? ≠ some '_' := by
  intro h
  have hnot := List.head?_dropWhile_not (· == '_') cs
  rw [h] at hnot
  cases hnot

/-- **Only underscores are trimmed to nothing.** -/
theorem trimUnderscores_eq_nil_iff {cs : List Char} :
    trimUnderscores cs = [] ↔ ∀ c ∈ cs, c = '_' := by
  rw [trimUnderscores_eq, List.rdropWhile_eq_nil_iff]
  constructor
  · intro h
    have hnil : cs.dropWhile (· == '_') = [] := by
      cases hrest : cs.dropWhile (· == '_') with
      | nil => rfl
      | cons c rest =>
        have hhead := head?_dropWhile_ne cs
        rw [hrest] at h hhead
        have hc : c = '_' := by simpa using h c List.mem_cons_self
        exact absurd (congrArg some hc) hhead
    simpa using List.dropWhile_eq_nil_iff.1 hnil
  · intro h c hc
    simpa using h c ((List.dropWhile_sublist _).mem hc)

/-- **None is left in front,** -/
theorem head?_trimUnderscores_ne (cs : List Char) : (trimUnderscores cs).head? ≠ some '_' := by
  intro h
  obtain ⟨more, hmore⟩ := List.rdropWhile_prefix (· == '_') (cs.dropWhile (· == '_'))
  refine head?_dropWhile_ne cs ?_
  rw [← hmore, ← trimUnderscores_eq]
  exact List.mem_head?_append_of_mem_head? h

/-- **and none behind.** -/
theorem getLast?_trimUnderscores_ne (cs : List Char) :
    (trimUnderscores cs).getLast? ≠ some '_' := by
  rw [trimUnderscores, List.getLast?_reverse]
  exact head?_dropWhile_ne _

/-- Without underscores at the ends there is nothing to trim. -/
theorem trimUnderscores_eq_self {cs : List Char} (hhead : cs.head? ≠ some '_')
    (hlast : cs.getLast? ≠ some '_') : trimUnderscores cs = cs := by
  have hkeep : ∀ cs : List Char, cs.head? ≠ some '_' → cs.dropWhile (· == '_') = cs := by
    intro cs h
    cases cs with
    | nil => rfl
    | cons c cs =>
      have hc : c ≠ '_' := by simpa using h
      simp [hc]
  rw [trimUnderscores, hkeep cs hhead, hkeep cs.reverse (by rwa [List.head?_reverse]),
    List.reverse_reverse]

/-! ### What is made of a stem -/

/-- A character as it stands in the stem of an upload. -/
def cleaned (c : Char) : Char :=
  if isKept c then c else '_'

/-- A character becomes an underscore, or is one, if it is no letter, digit or hyphen. -/
theorem cleaned_eq_underscore_iff {c : Char} :
    cleaned c = '_' ↔ c.isAlphanum = false ∧ c ≠ '-' := by
  by_cases hbar : c = '_'
  · subst hbar
    decide
  · cases halnum : c.isAlphanum <;> by_cases hhyphen : c = '-' <;>
      simp [cleaned, isKept, halnum, hhyphen, hbar]

/-- The characters that are left of the name of an upload. -/
def charsLeft (name : String) : List Char :=
  trimUnderscores (((stemOf ⟨name⟩).getD "").toList.map cleaned)

/-- The stem of an upload is what is left of its name, if anything is. -/
theorem uploadStem_eq (name : String) : uploadStem name
    = if (charsLeft name).isEmpty then none else some (String.ofList (charsLeft name)) :=
  rfl

/-- An upload has a stem if that is not empty, and is what is left of its name. -/
theorem uploadStem_eq_some_iff {name stem : String} : uploadStem name = some stem ↔
    stem ≠ "" ∧ stem.toList = charsLeft name := by
  rw [uploadStem_eq]
  split
  · rename_i hnil
    rw [List.isEmpty_iff.1 hnil]
    simp
  · rename_i hne
    rw [Option.some_inj]
    constructor
    · rintro rfl
      simpa using hne
    · rintro ⟨-, hstem⟩
      rw [← hstem, String.ofList_toList]

/-- **Nothing is left of a name** if its stem has no letter, no digit and no hyphen. -/
theorem uploadStem_eq_none_iff {name : String} : uploadStem name = none ↔
    ∀ c ∈ ((stemOf ⟨name⟩).getD "").toList, c.isAlphanum = false ∧ c ≠ '-' := by
  have hleft : uploadStem name = none ↔ charsLeft name = [] := by
    rw [uploadStem_eq]
    split <;> simp_all
  rw [hleft, charsLeft, trimUnderscores_eq_nil_iff, List.forall_mem_map]
  exact forall₂_congr fun _ _ => cleaned_eq_underscore_iff

/-- Is a text safe as a stem?  It is made of letters, digits, hyphens and underscores, and does not
begin or end in an underscore. -/
structure IsSafe (stem : String) : Prop where
  ne_empty : stem ≠ ""
  kept : ∀ c ∈ stem.toList, c.isAlphanum = true ∨ c = '-' ∨ c = '_'
  head : stem.toList.head? ≠ some '_'
  last : stem.toList.getLast? ≠ some '_'

/-- A safe name is a word. -/
theorem IsSafe.isWord {stem : String} (h : IsSafe stem) : IsWord stem := by
  refine ⟨fun hnil => h.ne_empty (String.toList_eq_nil_iff.1 hnil), fun c hc => ?_⟩
  rcases h.kept c hc with halnum | rfl | rfl
  · simp [isKept, halnum]
  · decide
  · decide

/-- **What is made of a name is safe.** -/
theorem isSafe_of_uploadStem {name stem : String} (h : uploadStem name = some stem) :
    IsSafe stem := by
  obtain ⟨hne, hstem⟩ := uploadStem_eq_some_iff.1 h
  refine ⟨hne, fun c hc => ?_, ?_, ?_⟩
  · have hkept := (isWord_of_uploadStem h).2 c hc
    simpa [isKept, or_assoc] using hkept
  · rw [hstem]
    exact head?_trimUnderscores_ne _
  · rw [hstem]
    exact getLast?_trimUnderscores_ne _

/-- **The safe names are those that are their own stems.** -/
theorem uploadStem_eq_self_iff {stem : String} : uploadStem stem = some stem ↔ IsSafe stem := by
  refine ⟨isSafe_of_uploadStem, fun h => uploadStem_eq_some_iff.2 ⟨h.ne_empty, ?_⟩⟩
  have hword := h.isWord
  have hsplit : (split stem).1 = stem := congrArg Prod.fst hword.split_eq
  have hstem : stemOf ⟨stem⟩ = some stem := stemOf_eq_some_iff.2 ⟨stem, hword.isStep.endsIn, hsplit⟩
  have hsame : ∀ c ∈ stem.toList, cleaned c = c := fun c hc => if_pos (hword.2 c hc)
  rw [charsLeft, hstem, Option.getD_some, List.map_congr_left hsame, List.map_id',
    trimUnderscores_eq_self h.head h.last]

/-- **Upload names are reduced to safe, stable stems.**  What is made of the name of an upload is
safe, plain, and its own stem.  It may be given a number, and each of a job's eight files may be
named after it: the file is told apart again by its stem and its artifact.  Nothing is made of a
name exactly if no name ends it, or the stem of that name has no letter, no digit and no hyphen. -/
theorem uploadStem_safe_and_stable (name : String) :
    (∀ stem, uploadStem name = some stem →
      IsSafe stem ∧ isPlain stem = true ∧ uploadStem stem = some stem ∧
        ∀ job, (job = stem ∨ ∃ n : Nat, job = stem ++ "_" ++ n.repr) → ∀ a ∈ Artifact.owned,
          (split (a.fileName job)).1 = job ∧ Artifact.ofExtension (split (a.fileName job)).2 = a) ∧
    (uploadStem name = none ↔ stemOf ⟨name⟩ = none ∨
      ∃ stem, stemOf ⟨name⟩ = some stem ∧ ∀ c ∈ stem.toList, c.isAlphanum = false ∧ c ≠ '-') ∧
    ∀ stem, stemOf ⟨name⟩ = some stem ↔
      ∃ last, Path.EndsIn ⟨name⟩ last ∧ (split last).1 = stem := by
  refine ⟨fun stem h => ?_, ?_, fun stem => stemOf_eq_some_iff⟩
  · have hsafe := isSafe_of_uploadStem h
    refine ⟨hsafe, hsafe.isWord.isPlain, uploadStem_eq_self_iff.2 hsafe, fun job hjob a ha => ?_⟩
    have hword : IsWord job := by
      rcases hjob with rfl | ⟨n, rfl⟩
      · exact hsafe.isWord
      · exact hsafe.isWord.numbered n
    have hkind := Artifact.mem_owned_iff.1 ha
    rw [hword.split_fileName hkind]
    exact ⟨rfl, Artifact.ofExtension_extension hkind⟩
  · rw [uploadStem_eq_none_iff]
    cases stemOf ⟨name⟩ <;> simp

/-- The name of an upload with a slash at the end, blanks, brackets and two dots. -/
def messyName : String :=
  "lists/../my list (2).tar.txt/./"

/-- A messy name, its stem, and the progress file of the tenth job with that stem. -/
theorem uploadStem_safe_and_stable_messyName :
    uploadStem messyName = some "my_list__2__tar" ∧
      uploadStem "my_list__2__tar" = some "my_list__2__tar" ∧
      FileName.split (Artifact.progress.fileName "my_list__2__tar_10")
        = ("my_list__2__tar_10", some "count") := by
  have hstem : uploadStem messyName = some "my_list__2__tar" := by decide +kernel
  obtain ⟨-, -, hself, hfiles⟩ := (uploadStem_safe_and_stable messyName).1 _ hstem
  obtain ⟨hjob, hkind⟩ := hfiles "my_list__2__tar_10" (Or.inr ⟨10, by decide⟩) .progress (by decide)
  exact ⟨hstem, hself, Prod.ext hjob ((Artifact.ofExtension_eq_iff (by decide)).1 hkind)⟩

end FileName
end JobSpool
