/-
# Fields and lines that are read back

A program that writes a text and one that reads it agree on fields and lines.  A run of
characters that are not blank is one field (`fields_append`), a line that was ended by a line feed
is read as it was written (`lines_append`), and every character that is not blank is in some line,
where it makes a field (`exists_mem_lines`).

So the two counts in a progress file are read as they were written (`Progress.ofText?_line`),
and a listing with anything but blanks in it has an entry (`PendingQueue.entries_ne_nil`).
-/

import JobSpool.Progress
import JobSpool.Scheduler.Queue

namespace JobSpool

namespace Text

/-! ### Fields -/

/-- **A run of characters that are not blank is one field,** up to the next blank. -/
theorem fields_append {word rest : List Char} {b : Char} (hne : word ≠ [])
    (hword : ∀ c ∈ word, isBlank c = false) (hb : isBlank b = true) :
    fields (word ++ b :: rest) = word :: fields rest := by
  induction word with
  | nil => exact absurd rfl hne
  | cons c word ih =>
    have hc : isBlank c = false := hword c List.mem_cons_self
    have hmore : ∀ d ∈ word, isBlank d = false := fun d hd => hword d (List.mem_cons_of_mem _ hd)
    rw [List.cons_append, fields, if_neg (by simp [hc])]
    cases word with
    | nil =>
      have hhead : (b :: rest).head?.all isBlank = true := hb
      rw [List.nil_append, if_pos hhead, fields, if_pos hb]
    | cons d word =>
      have hd : isBlank d = false := hmore d List.mem_cons_self
      rw [if_neg (by simp [hd]), ih (List.cons_ne_nil d word) hmore, extendFirst]

/-- A run of characters that are not blank is one field at the end of a text, too. -/
theorem fields_word {word : List Char} (hne : word ≠ []) (h : ∀ c ∈ word, isBlank c = false) :
    fields word = [word] := by
  induction word with
  | nil => exact absurd rfl hne
  | cons c word ih =>
    have hc : isBlank c = false := h c List.mem_cons_self
    rw [fields, if_neg (by simp [hc])]
    cases word with
    | nil => rfl
    | cons d word =>
      have hd : isBlank d = false := h d (by simp)
      rw [if_neg (by simp [hd]),
        ih (List.cons_ne_nil _ _) fun e he => h e (List.mem_cons_of_mem _ he), extendFirst]

/-- Blanks in front of a field do not matter. -/
theorem fields_replicate_append {b : Char} (hb : isBlank b = true) (n : Nat) (cs : List Char) :
    fields (List.replicate n b ++ cs) = fields cs := by
  induction n with
  | zero => rfl
  | succ n ih => rw [List.replicate_succ, List.cons_append, fields, if_pos hb, ih]

/-- A text with a character that is not blank has a field. -/
theorem fields_ne_nil {cs : List Char} {c : Char} (hmem : c ∈ cs) (hc : isBlank c = false) :
    fields cs ≠ [] := by
  induction cs with
  | nil => cases hmem
  | cons d cs ih =>
    rw [fields]
    split
    · rename_i hd
      rcases List.mem_cons.1 hmem with rfl | hmem
      · rw [hc] at hd
        cases hd
      · exact ih hmem
    · split
      · exact List.cons_ne_nil _ _
      · cases fields cs with
        | nil => exact List.cons_ne_nil _ _
        | cons word words => exact List.cons_ne_nil _ _

/-! ### Lines -/

/-- **A line that a line feed ends is read as it was written.** -/
theorem lines_append {line : List Char} (h : ∀ c ∈ line, c ≠ '\n' ∧ c ≠ '\r') (rest : List Char) :
    lines (line ++ '\n' :: rest) = line :: lines rest := by
  induction line with
  | nil => rw [List.nil_append, lines]
  | cons c line ih =>
    obtain ⟨hfeed, hreturn⟩ := h c List.mem_cons_self
    rw [List.cons_append, lines, ih fun d hd => h d (List.mem_cons_of_mem _ hd), extendFirst]
    · exact hfeed
    · exact fun _ hc => absurd hc hreturn

/-- So are lines that are written one after the other. -/
theorem lines_flatMap {written : List (List Char)}
    (h : ∀ line ∈ written, ∀ c ∈ line, c ≠ '\n' ∧ c ≠ '\r') :
    lines (written.flatMap (· ++ ['\n'])) = written := by
  induction written with
  | nil => rfl
  | cons line written ih =>
    rw [List.flatMap_cons, List.append_assoc, List.singleton_append,
      lines_append (h line List.mem_cons_self),
      ih fun line' hline' => h line' (List.mem_cons_of_mem _ hline')]

/-- A character that is put in front of the first word is in some word, -/
theorem exists_mem_extendFirst (c : Char) (words : List (List Char)) :
    ∃ word ∈ extendFirst c words, c ∈ word := by
  cases words with
  | nil => exact ⟨[c], List.mem_cons_self, List.mem_cons_self⟩
  | cons word words => exact ⟨c :: word, List.mem_cons_self, List.mem_cons_self⟩

/-- and so is every other one still. -/
theorem exists_mem_extendFirst_of_mem (c : Char) {words : List (List Char)} {word : List Char}
    (hword : word ∈ words) {d : Char} (hd : d ∈ word) :
    ∃ word' ∈ extendFirst c words, d ∈ word' := by
  cases words with
  | nil => cases hword
  | cons first words =>
    rcases List.mem_cons.1 hword with rfl | hword
    · exact ⟨c :: word, List.mem_cons_self, List.mem_cons_of_mem _ hd⟩
    · exact ⟨word, List.mem_cons_of_mem _ hword, hd⟩

/-- **Every character that is not blank is in some line.** -/
theorem exists_mem_lines {cs : List Char} {c : Char} (hmem : c ∈ cs) (hc : isBlank c = false) :
    ∃ line ∈ lines cs, c ∈ line := by
  have hne : ∀ d, isBlank d = true → c ≠ d := by
    rintro d hd rfl
    rw [hc] at hd
    cases hd
  induction cs using lines.induct with
  | case1 => cases hmem
  | case2 cs ih =>
    obtain ⟨line, hline, hmem⟩ := ih ((List.mem_cons.1 hmem).resolve_left (hne _ (by decide)))
    rw [lines]
    exact ⟨line, List.mem_cons_of_mem _ hline, hmem⟩
  | case3 cs ih =>
    have hrest := (List.mem_cons.1 hmem).resolve_left (hne _ (by decide))
    obtain ⟨line, hline, hmem⟩ := ih ((List.mem_cons.1 hrest).resolve_left (hne _ (by decide)))
    rw [lines]
    exact ⟨line, List.mem_cons_of_mem _ hline, hmem⟩
  | case4 d cs hfeed hreturn ih =>
    rw [lines]
    · rcases List.mem_cons.1 hmem with rfl | hmem
      · exact exists_mem_extendFirst c _
      · obtain ⟨line, hline, hmem⟩ := ih hmem
        exact exists_mem_extendFirst_of_mem d hline hmem
    · exact hfeed
    · exact hreturn

end Text

/-! ### What is read back -/

/-- A digit is not blank. -/
theorem Text.isBlank_of_isDigit {c : Char} (h : c.isDigit = true) : isBlank c = false := by
  have hrange : 48 ≤ c.toNat ∧ c.toNat ≤ 57 := by
    simp only [Char.isDigit, Bool.and_eq_true, decide_eq_true_eq] at h
    exact h
  simp only [isBlank, inRanges, blankRanges, List.any_cons, List.any_nil, Bool.or_false,
    Bool.or_eq_false_iff, Bool.and_eq_false_iff, decide_eq_false_iff_not]
  omega

/-- A count is written in decimal. -/
theorem Text.toList_writeCount (n : UInt64) : (writeCount n).toList = Nat.toDigits 10 n.toNat :=
  Nat.toList_repr

/-- A count is not written as the empty text. -/
theorem Text.length_toList_writeCount_pos (n : UInt64) : 0 < (writeCount n).toList.length := by
  rw [toList_writeCount]
  exact List.length_pos_iff.2 Nat.toDigits_ne_nil

/-- No character of a count is blank. -/
theorem Text.not_isBlank_of_mem_writeCount {n : UInt64} {c : Char}
    (h : c ∈ (writeCount n).toList) : isBlank c = false := by
  rw [toList_writeCount] at h
  exact isBlank_of_isDigit (Nat.isDigit_of_mem_toDigits (by decide) (by decide) h)

/-- **The counts of a progress file are read as they were written.** -/
theorem Progress.ofText?_line (p : Progress) : Progress.ofText? p.line = some p := by
  have hcount : ∀ n : UInt64, (Text.writeCount n).toList ≠ [] ∧
      ∀ c ∈ (Text.writeCount n).toList, Text.isBlank c = false := fun n =>
    ⟨List.length_pos_iff.1 (Text.length_toList_writeCount_pos n),
      fun _ => Text.not_isBlank_of_mem_writeCount⟩
  have hline : p.line.toList = (Text.writeCount p.processed).toList ++ (' ' ::
      ((Text.writeCount p.total).toList ++ ['\n'])) := by
    simp [Progress.line, String.toList_append]
  have hblank : Text.isBlank ' ' = true ∧ Text.isBlank '\n' = true := by decide
  rw [ofText?, hline, Text.fields_append (hcount _).1 (hcount _).2 hblank.1,
    Text.fields_append (hcount _).1 (hcount _).2 hblank.2]
  simp only [ofFields?, Text.readCount?_writeCount]

/-- **A listing with anything but blanks in it has an entry.** -/
theorem PendingQueue.entries_ne_nil {listing : String} {c : Char} (hmem : c ∈ listing.toList)
    (hc : Text.isBlank c = false) : (ofListing listing).entries ≠ [] := by
  obtain ⟨line, hline, hmem⟩ := Text.exists_mem_lines hmem hc
  obtain ⟨ticket, more, hfields⟩ := List.exists_cons_of_ne_nil (Text.fields_ne_nil hmem hc)
  obtain ⟨entry, hentry⟩ : ∃ entry, PendingEntry.ofLine? line = some entry := by
    rw [PendingEntry.ofLine?, hfields]
    exact ⟨_, rfl⟩
  exact List.ne_nil_of_mem (List.mem_filterMap.2 ⟨line, hline, hentry⟩)

end JobSpool
