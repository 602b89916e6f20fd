/-
# What a half-written progress file tells

`parse_progress`: `SPEC_FULL.md`, 5, "a partial write could, in principle, be observed".

A worker overwrites its progress file, so a reader may find any part of the line from its start
(`Progress.cutLine`).  `Progress.ofText?_cutLine` says what such a part tells, wherever the line
was cut: nothing up to the blank between the two counts, and from there on both counts, but the
total without the digits that are missing.  So the first count is never misread, and a part of the
line is no sign of being one: it is misread exactly if it was cut between two digits of the total
(`Progress.cutLine_misread_iff`).

Missing digits divide a count by a power of ten (`Text.readCount?_take_writeCount`), since the
digits of a quotient are the first digits of the number (`Text.take_toDigits`).
-/

import JobSpool.Proofs.Lines
import Mathlib.Algebra.Group.Nat.Defs

namespace JobSpool

namespace Text

/-! ### Counts without their last digits -/

/-- **The first digits of a number are those of a quotient.** -/
theorem take_toDigits {n k : Nat} (h : k < (Nat.toDigits 10 n).length) :
    (Nat.toDigits 10 n).take ((Nat.toDigits 10 n).length - k) = Nat.toDigits 10 (n / 10 ^ k) := by
  induction k generalizing n with
  | zero => simp
  | succ k ih =>
    have hn : 10 ≤ n := Nat.le_of_not_lt fun hsmall => by
      rw [Nat.toDigits_of_lt_base hsmall] at h
      simp at h
    have hdigits := Nat.toDigits_of_base_le (b := 10) (by decide) hn
    have hlength : (Nat.toDigits 10 n).length = (Nat.toDigits 10 (n / 10)).length + 1 := by
      rw [hdigits, List.length_append, List.length_singleton]
    have hk : k < (Nat.toDigits 10 (n / 10)).length := by omega
    rw [hlength, Nat.add_sub_add_right, hdigits,
      List.take_append_of_le_length (Nat.sub_le _ _), ih hk, Nat.div_div_eq_div_mul,
      Nat.pow_succ, Nat.mul_comm]

/-- The count that is left of one without its last digits. -/
def shortened (n : UInt64) (missing : Nat) : UInt64 :=
  .ofNat (n.toNat / 10 ^ missing)

/-- A count without its last digits is divided by a power of ten. -/
theorem toNat_shortened (n : UInt64) (missing : Nat) :
    (shortened n missing).toNat = n.toNat / 10 ^ missing :=
  UInt64.toNat_ofNat_of_lt' (Nat.lt_of_le_of_lt (Nat.div_le_self _ _) n.toNat_lt)

/-- **A count that was cut short** is read as a quotient of it. -/
theorem readCount?_take_writeCount (n : UInt64) {m : Nat} (hm : 0 < m) :
    readCount? ((writeCount n).toList.take m)
      = some (shortened n ((writeCount n).toList.length - m)) := by
  have hpos := length_toList_writeCount_pos n
  have hdigits : (writeCount n).toList.take m
      = (writeCount (shortened n ((writeCount n).toList.length - m))).toList := by
    rw [toList_writeCount (shortened _ _), toNat_shortened]
    rw [toList_writeCount] at hpos ⊢
    rw [← take_toDigits (by omega)]
    rcases Nat.le_total m (Nat.toDigits 10 n.toNat).length with h | h
    · congr 1
      omega
    · rw [List.take_of_length_le h, Nat.sub_eq_zero_of_le h, Nat.sub_zero, List.take_length]
  rw [hdigits, readCount?_writeCount]

/-! ### Fields that are cut short -/

/-- **A word and the blank after it,** wherever they are cut, are one field or none. -/
theorem fields_take_word {word : List Char} {b : Char} (h : ∀ c ∈ word, isBlank c = false)
    (hb : isBlank b = true) (hne : word ≠ []) (m : Nat) :
    fields ((word ++ [b]).take m) = if m = 0 then [] else [word.take m] := by
  split
  · rename_i hm
    rw [hm]
    rfl
  · rename_i hm
    rcases Nat.le_total m word.length with hshort | hlong
    · rw [List.take_append_of_le_length hshort]
      refine fields_word ?_ fun c hc => h c (List.mem_of_mem_take hc)
      rw [Ne, List.take_eq_nil_iff, not_or]
      exact ⟨hm, hne⟩
    · rw [List.take_of_length_le hlong, List.take_append, List.take_of_length_le hlong]
      rcases Nat.eq_or_lt_of_le hlong with heq | hlt
      · rw [heq, Nat.sub_self, List.take_zero, List.append_nil]
        exact fields_word hne h
      · rw [List.take_of_length_le (by simp; omega)]
        exact fields_append hne h hb

end Text

namespace Progress

/-! ### The line, cut anywhere -/

/-- What a reader finds when so many characters of the line have been written. -/
def cutLine (p : Progress) (written : Nat) : String :=
  String.ofList (p.line.toList.take written)

/-- The number of characters up to the total: the first count, and a blank. -/
def startOfTotal (p : Progress) : Nat :=
  (Text.writeCount p.processed).toList.length + 1

/-- The number of digits of the total that have not been written yet. -/
def missingDigits (p : Progress) (written : Nat) : Nat :=
  (Text.writeCount p.total).toList.length - (written - p.startOfTotal)

/-- The line of a progress file is two counts, a blank and a line feed. -/
theorem toList_line (p : Progress) : p.line.toList
    = ((Text.writeCount p.processed).toList ++ [' '])
      ++ ((Text.writeCount p.total).toList ++ ['\n']) := by
  simp [line, String.toList_append]

/-- The total starts behind the first count and the blank. -/
theorem length_front (p : Progress) :
    ((Text.writeCount p.processed).toList ++ [' ']).length = p.startOfTotal := by
  rw [List.length_append, List.length_singleton, startOfTotal]

/-- A count has a digit at least. -/
theorem ne_nil_of_count (n : UInt64) : (Text.writeCount n).toList ≠ [] :=
  List.length_pos_iff.1 (Text.length_toList_writeCount_pos n)

/-- Up to the blank there is one field at most. -/
theorem ofText?_cutLine_of_le {p : Progress} {written : Nat} (h : written ≤ p.startOfTotal) :
    ofText? (p.cutLine written) = none := by
  have hfields := Text.fields_take_word (b := ' ') (m := written)
    (fun c => Text.not_isBlank_of_mem_writeCount (n := p.processed)) (by decide)
    (ne_nil_of_count p.processed)
  rw [ofText?, cutLine, String.toList_ofList, toList_line,
    List.take_append_of_le_length (by rwa [length_front]), hfields]
  split <;> rfl

/-- From there on there are two, and the second one is cut short. -/
theorem ofText?_cutLine_of_lt {p : Progress} {written : Nat} (h : p.startOfTotal < written) :
    ofText? (p.cutLine written)
      = some ⟨p.processed, Text.shortened p.total (p.missingDigits written)⟩ := by
  have hm : written - p.startOfTotal ≠ 0 := by omega
  have hfront := length_front p
  have hfields := Text.fields_take_word (b := '\n') (m := written - p.startOfTotal)
    (fun c => Text.not_isBlank_of_mem_writeCount (n := p.total)) (by decide)
    (ne_nil_of_count p.total)
  rw [if_neg hm] at hfields
  rw [ofText?, cutLine, String.toList_ofList, toList_line, List.take_append, hfront,
    List.take_of_length_le (by omega), List.append_assoc, List.singleton_append,
    Text.fields_append (ne_nil_of_count p.processed)
      (fun c => Text.not_isBlank_of_mem_writeCount) (by decide), hfields]
  simp only [ofFields?, Text.readCount?_writeCount,
    Text.readCount?_take_writeCount p.total (Nat.pos_of_ne_zero hm), missingDigits]

/-- **What a half-written line tells,** wherever it was cut. -/
theorem ofText?_cutLine (p : Progress) (written : Nat) :
    ofText? (p.cutLine written) =
      if written ≤ p.startOfTotal then none
      else some ⟨p.processed, Text.shortened p.total (p.missingDigits written)⟩ := by
  split
  · rename_i h
    exact ofText?_cutLine_of_le h
  · rename_i h
    exact ofText?_cutLine_of_lt (Nat.lt_of_not_le h)

/-- A total is the smaller for every digit that it misses, if one digit is left of it. -/
theorem shortened_eq_iff {n : UInt64} {missing : Nat}
    (h : missing < (Text.writeCount n).toList.length) :
    Text.shortened n missing = n ↔ missing = 0 := by
  rw [← UInt64.toNat_inj, Text.toNat_shortened]
  constructor
  · intro hsame
    have hdigits := Text.toList_writeCount n
    have htake := Text.take_toDigits (hdigits ▸ h)
    rw [hsame] at htake
    have hlength := congrArg List.length htake
    rw [List.length_take, ← hdigits] at hlength
    omega
  · rintro rfl
    rw [Nat.pow_zero, Nat.div_one]

/-- **A half-written line is misread exactly if its total was cut between two digits.**  Cut
before, it tells nothing; cut behind the last digit, it tells the progress that was written.  The
number of processed items is right whenever anything is told, and the total is never too large. -/
theorem cutLine_misread_iff (p : Progress) (written : Nat) :
    ((∃ q, ofText? (p.cutLine written) = some q ∧ q ≠ p) ↔
      p.startOfTotal < written ∧ 0 < p.missingDigits written) ∧
    ∀ q, ofText? (p.cutLine written) = some q →
      q.processed = p.processed ∧ q.total.toNat = p.total.toNat / 10 ^ p.missingDigits written := by
  rw [ofText?_cutLine]
  refine ⟨?_, fun q hq => ?_⟩
  · split
    · rename_i h
      simp [Nat.not_lt.2 h]
    · rename_i h
      have hleft : p.missingDigits written < (Text.writeCount p.total).toList.length := by
        have hpos := Text.length_toList_writeCount_pos p.total
        rw [missingDigits]
        omega
      have hsame := shortened_eq_iff hleft
      constructor
      · rintro ⟨q, hq, hne⟩
        refine ⟨Nat.lt_of_not_le h, Nat.pos_of_ne_zero fun hmissing => hne ?_⟩
        rw [← Option.some.inj hq, hsame.2 hmissing]
      · rintro ⟨-, hmissing⟩
        exact ⟨_, rfl, fun heq => Nat.ne_of_gt hmissing (hsame.1 (congrArg total heq))⟩
  · split at hq
    · cases hq
    · cases hq
      exact ⟨rfl, Text.toNat_shortened _ _⟩

/-- Five characters and a line feed tell 12 of 40 items.  Four of them tell 12 of 4. -/
theorem cutLine_misread_twelve :
    ¬ ∀ (p : Progress) (written : Nat),
      ofText? (p.cutLine written) = none ∨ ofText? (p.cutLine written) = some p := by
  intro h
  have hcut : (⟨12, 40⟩ : Progress).cutLine 4 = "12 4" := by decide
  have htold : ofText? "12 4" = some ⟨12, 4⟩ := by decide
  rcases h ⟨12, 40⟩ 4 with hnone | hsome
  · rw [hcut, htold] at hnone
    cases hnone
  · rw [hcut, htold] at hsome
    exact absurd hsome (by decide)

end Progress
end JobSpool
