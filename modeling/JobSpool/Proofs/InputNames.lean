/-
# The names of inputs

An input is named after an upload or gets a generated name.  Either way the name is a *word*
(`IsWord`): letters, digits, hyphens and underscores, and at least one of them.  A word is one
step of a path (`IsWord.isStep`), has no dot, and so is the stem of the job that it becomes
(`IsWord.split_eq`).

The first free one of some names is taken (`createFirst_eq_ok`), and for an upload it is none
that a file has as its stem, or that a file of the hit list would belong to (`mem_candidates`).
-/

import JobSpool.Lifecycle.Submit
import JobSpool.Proofs.Edits
import JobSpool.Proofs.Stems

namespace JobSpool

/-- Is the text made of characters that an upload keeps, and not empty? -/
def IsWord (name : String) : Prop :=
  name.toList ≠ [] ∧ ∀ c ∈ name.toList, FileName.isKept c = true

namespace IsWord

variable {name : String}

/-- A word has none of the characters that uploads lose. -/
theorem notMem (h : IsWord name) {c : Char} (hc : FileName.isKept c = false) :
    c ∉ name.toList := by
  intro hmem
  rw [h.2 c hmem] at hc
  cases hc

/-- **A word is one step of a path,** and stays one when something without a slash follows. -/
theorem isStep_append (h : IsWord name) (more : String) (hmore : '/' ∉ more.toList) :
    Path.IsStep (name ++ more) := by
  obtain ⟨c, cs, hcs⟩ := List.exists_cons_of_ne_nil h.1
  have hdot : c ≠ '.' := by
    rintro rfl
    exact h.notMem (c := '.') (by decide) (by simp [hcs])
  have hlist : (name ++ more).toList = c :: (cs ++ more.toList) := by
    rw [String.toList_append, hcs, List.cons_append]
  constructor
  · have hpiece : Path.Step.ofPiece? (c :: (cs ++ more.toList))
        = some (.down (String.ofList (c :: (cs ++ more.toList)))) := by
      unfold Path.Step.ofPiece?
      split
      · rename_i hnil
        cases hnil
      · rename_i hone
        exact absurd (List.cons.inj hone).1 hdot
      · rename_i htwo
        exact absurd (List.cons.inj htwo).1 hdot
      · rfl
    rw [hlist, hpiece, ← hlist, String.ofList_toList]
  · rw [String.toList_append, List.mem_append, not_or]
    exact ⟨h.notMem (by decide), hmore⟩

/-- A word is a step of a path. -/
theorem isStep (h : IsWord name) : Path.IsStep name := by
  simpa using h.isStep_append "" (by decide)

/-- **A word is all stem.** -/
theorem split_eq (h : IsWord name) : FileName.split name = (name, none) :=
  FileName.split_of_notMem (h.notMem (by decide))

/-- A word is not empty. -/
theorem ne_empty (h : IsWord name) : name ≠ "" := by
  rintro rfl
  exact h.1 rfl

/-- A word does not start with a dot, so it is not hidden. -/
theorem head?_ne (h : IsWord name) : name.toList.head? ≠ some '.' := by
  intro hdot
  exact h.notMem (by decide) (List.mem_of_mem_head? hdot)

/-- **A word is a plain name.** -/
theorem isPlain (h : IsWord name) : FileName.isPlain name = true :=
  FileName.isPlain_iff.2 ⟨⟨h.ne_empty, h.head?_ne, h.notMem (by decide)⟩, h.notMem (by decide),
    h.notMem (by decide)⟩

/-- A word stays one when characters are added that uploads keep. -/
theorem append {more : String} (h : IsWord name)
    (hmore : ∀ c ∈ more.toList, FileName.isKept c = true) : IsWord (name ++ more) := by
  refine ⟨by simp [h.1], fun c hc => ?_⟩
  rw [String.toList_append, List.mem_append] at hc
  exact hc.elim (h.2 c) (hmore c)

/-- **The files of a word are told apart,** the input as well. -/
theorem split_fileName (h : IsWord name) {a : Artifact} (ha : a ≠ .unrecognized) :
    FileName.split (a.fileName name) = (name, a.extension) := by
  by_cases hi : a = .input
  · subst hi
    exact h.split_eq
  · exact Artifact.split_fileName h.ne_empty ha hi

/-- None of them is hidden. -/
theorem head?_fileName_ne (h : IsWord name) (a : Artifact) :
    (a.fileName name).toList.head? ≠ some '.' := by
  obtain ⟨c, cs, hcs⟩ := List.exists_cons_of_ne_nil h.1
  have hhead := h.head?_ne
  rw [hcs] at hhead
  cases a <;> simpa [Artifact.fileName, Artifact.extension, FileName.ofParts, hcs] using hhead

end IsWord

namespace FileName

/-- Digits are kept in the stem of an upload. -/
theorem isKept_of_isDigit {c : Char} (h : c.isDigit = true) : isKept c = true := by
  simp [isKept, Char.isAlphanum, h]

/-- So is a number in decimal. -/
theorem isKept_of_mem_repr {n : Nat} {c : Char} (h : c ∈ n.repr.toList) : isKept c = true := by
  rw [Nat.toList_repr] at h
  exact isKept_of_isDigit (Nat.isDigit_of_mem_toDigits (by decide) (by decide) h)

/-- What is left between the underscores was there before. -/
theorem mem_of_mem_trimUnderscores {cs : List Char} {c : Char} (h : c ∈ trimUnderscores cs) :
    c ∈ cs := by
  rw [trimUnderscores, List.mem_reverse] at h
  have hfront := (List.dropWhile_sublist _).mem h
  rw [List.mem_reverse] at hfront
  exact (List.dropWhile_sublist _).mem hfront

/-- **The stem of an upload is a word.** -/
theorem isWord_of_uploadStem {name stem : String} (h : uploadStem name = some stem) :
    IsWord stem := by
  rw [uploadStem] at h
  split at h
  · cases h
  · rename_i hne
    rw [← Option.some.inj h]
    refine ⟨by simpa using hne, fun c hc => ?_⟩
    rw [String.toList_ofList] at hc
    obtain ⟨c', -, rfl⟩ := List.mem_map.1 (mem_of_mem_trimUnderscores hc)
    split
    · assumption
    · decide

end FileName

/-- **A word with a number** is a word. -/
theorem IsWord.numbered {name : String} (h : IsWord name) (n : Nat) :
    IsWord (name ++ "_" ++ n.repr) := by
  have hbar : IsWord (name ++ "_") := h.append (List.all_eq_true.1 (by decide))
  exact hbar.append fun c hc => FileName.isKept_of_mem_repr hc

namespace Store

/-- Each of the names for an upload is a word. -/
theorem isWord_candidate {base : String} (h : IsWord base) (n : Nat) :
    IsWord (candidate base n) := by
  rw [candidate]
  split
  · exact h
  · exact h.numbered n

/-- **No name for an upload adopts a file,** or claims one of the hit list. -/
theorem mem_candidates {base : String} {reserved : List String} {entries : List Entry}
    {name : String} (h : name ∈ candidates base reserved entries) :
    (∃ n, name = candidate base n) ∧ (∀ e ∈ entries, e.stem ≠ name) ∧
      claimsReserved reserved name = false := by
  rw [candidates, List.mem_filter, List.mem_map] at h
  obtain ⟨⟨n, -, rfl⟩, hfree⟩ := h
  refine ⟨⟨n + 1, rfl⟩, ?_⟩
  simpa using hfree

end Store

/-- **A job that claims no file of the hit list** has none. -/
theorem HitListConfig.owns_eq_false {h : HitListConfig} {stem : String}
    (hclaims : Store.claimsReserved h.reserved stem = false) {a : Artifact}
    (ha : a ∈ Artifact.owned) : h.owns (a.fileName stem) = false := by
  rw [Store.claimsReserved, List.any_eq_false] at hclaims
  have hnot := hclaims a ha
  rw [owns, Bool.or_eq_false_iff]
  simpa [reserved] using hnot

namespace Instant

/-- A number that is filled up with zeros has characters that are kept. -/
theorem isKept_of_mem_filled {width n : Nat} {c : Char} (h : c ∈ (filled '0' width n).toList) :
    FileName.isKept c = true := by
  rw [filled, String.toList_ofList, List.mem_append] at h
  rcases h with h | h
  · rw [(List.mem_replicate.1 h).2]
    decide
  · exact FileName.isKept_of_isDigit (Nat.isDigit_of_mem_toDigits (by decide) (by decide) h)

/-- The stamp in a generated name has characters that are kept. -/
theorem isKept_of_mem_stamp {now : Instant} {c : Char} (h : c ∈ now.stamp.toList) :
    FileName.isKept c = true := by
  have hclock : ∀ a b d : String, "".intercalate [a, b, d] = a ++ "" ++ b ++ "" ++ d :=
    fun _ _ _ => rfl
  simp only [stamp, year, clock, hclock, String.append_empty, String.toList_append,
    List.mem_append] at h
  rcases h with ((h | h) | h) | (h | h) | h <;> exact isKept_of_mem_filled h

end Instant
namespace Store

/-- **A generated name is a word,** when its start and its token are made like one. -/
theorem isWord_generatedName {start token : String} {now : Instant} (hs : IsWord start)
    (ht : ∀ c ∈ token.toList, FileName.isKept c = true) :
    IsWord (generatedName start now token) := by
  have hstamp : IsWord (start ++ now.stamp) := hs.append fun c hc =>
    Instant.isKept_of_mem_stamp hc
  have hbar : IsWord (start ++ now.stamp ++ "_") := hstamp.append (List.all_eq_true.1 (by decide))
  exact hbar.append ht

variable {folder : Path} {now : Instant} {t t' : Files.Tree}

/-- The first name is tried, and when it is taken the others are. -/
theorem createFirst_cons {name : String} {names : List String} :
    createFirst folder now t (name :: names) =
      match t.create (folder.join name) now with
      | .ok t => .ok (some (folder.join name, t))
      | .error (.system .exists) => createFirst folder now t names
      | .error fault => .error (.create (folder.join name) fault) := (rfl)

/-- A name that is refused for another reason than being taken ends the search. -/
theorem createFirst_cons_of_error {name : String} {names : List String} {fault : Files.Fault}
    (h : t.create (folder.join name) now = .error fault) (hne : fault ≠ .system .exists) :
    createFirst folder now t (name :: names) = .error (.create (folder.join name) fault) := by
  rw [createFirst_cons, h]
  split
  · rename_i hok
    cases hok
  · rename_i hexists
    exact absurd (Except.error.inj hexists) hne
  · rename_i hfault
    rw [Except.error.inj hfault]

/-- **The file that is created has one of the names,** and none had it before. -/
theorem createFirst_eq_ok {names : List String} {input : Path}
    (h : createFirst folder now t names = .ok (some (input, t'))) :
    ∃ name ∈ names, input = folder.join name ∧ t.create (folder.join name) now = .ok t' := by
  induction names with
  | nil => exact absurd (show Except.ok none = Except.ok (some (input, t')) from h) (by simp)
  | cons name names ih =>
    rw [createFirst_cons] at h
    split at h
    · rename_i hok
      simp only [Except.ok.injEq, Option.some.injEq, Prod.mk.injEq] at h
      exact ⟨name, List.mem_cons_self, h.1.symm, h.2 ▸ hok⟩
    · obtain ⟨name', hmem, hrest⟩ := ih h
      exact ⟨name', List.mem_cons_of_mem _ hmem, hrest⟩
    · cases h

/-- Something was created if the names were not exhausted. -/
theorem orExhausted_eq_ok {start : String} {made : Path × Files.Tree}
    {r : Except StorageError (Option (Path × Files.Tree))}
    (h : orExhausted folder start r = .ok made) : r = .ok (some made) := by
  rcases r with e | _ | made'
  · cases h
  · cases h
  · cases h
    rfl

end Store

/-- **A plain name is one step of a path.** -/
theorem FileName.isStep_of_isPlain {name : String} (h : isPlain name = true) :
    Path.IsStep name := by
  unfold isPlain at h
  split at h
  · cases h
  · rename_i c cs hcs
    obtain ⟨hdot, hseparator⟩ : c ≠ '.' ∧ ∀ d ∈ c :: cs, isSeparator d = false := by
      simpa using h
    constructor
    · unfold Path.Step.ofPiece?
      split
      · rename_i hnil
        rw [hcs] at hnil
        cases hnil
      · rename_i hone
        rw [hcs] at hone
        exact absurd (List.cons.inj hone).1 hdot
      · rename_i htwo
        rw [hcs] at htwo
        exact absurd (List.cons.inj htwo).1 hdot
      · rw [String.ofList_toList]
    · rw [hcs]
      intro hmem
      exact Bool.noConfusion (hseparator _ hmem)

/-- The name of a principal is a step of a path. -/
theorem Principal.isStep (p : Principal) : Path.IsStep p.name :=
  FileName.isStep_of_isPlain p.isPlain

/-- The path of a job's input names the job. -/
theorem shownName_join {folder : Path} (hf : folder.text.toList ≠ []) {name : String}
    (hn : Path.IsStep name) : (folder.join name).shownName = name := by
  have hlast : ∀ steps : List Path.Step, (steps ++ [Path.Step.down name]).getLast?
      = some (.down name) := fun steps => List.getLast?_concat
  have htrail : (folder.join name).trail.getLast? = some (.down name) := by
    rw [Path.trail, (Path.steps_join hf hn).1, List.filter_append]
    split
    · exact hlast (.stay :: _)
    · exact hlast _
  rw [Path.shownName, Path.fileName, htrail]
  rfl

end JobSpool
