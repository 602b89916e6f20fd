/-
# Where an acknowledgement is found

`SPEC_FULL.md`, E9: "Ticket id parsed from the facility's `job <id> at <when>` line", by
`parse_at_ticket`.

The facility acknowledges a command somewhere in what it prints.  `Ticket.Acknowledges` says how an
acknowledgement reads: `job`, blanks, the ticket, blanks, and `at` as a whole word.  The blanks may
be any, line feeds among them, and so an acknowledgement may begin in one line and end in another.
But it begins where a line does (`Text.IsLineStart`).

The reader takes all the blanks that there are, then all that is not blank, and never goes back.
It need not: as a ticket has no blanks, there is one way only to cut the characters
(`Text.span_eq_iff`), and if that fails nothing else could do (`Ticket.acknowledged?_eq_some_iff`).
So the first place where something reads as an acknowledgement is the one that counts
(`Ticket.first_acknowledgement_counts`).
-/

import JobSpool.Proofs.ListingLines

namespace JobSpool

namespace Text

/-- Is a run of characters a gap between two fields: is it not empty, and all blank? -/
def IsGap (cs : List Char) : Prop :=
  cs ≠ [] ∧ ∀ c ∈ cs, isBlank c = true

/-- A gap, as the reader tests for it: at least one character, and only blanks. -/
theorem isGap_iff {cs : List Char} : IsGap cs ↔ (!cs.isEmpty && cs.all isBlank) = true := by
  simp [IsGap]

instance (cs : List Char) : Decidable (IsGap cs) :=
  decidable_of_iff _ isGap_iff.symm

/-- Does a line start at a position of a text: at the very start, or right behind a line feed? -/
def IsLineStart (cs : List Char) : Nat → Prop
  | 0 => True
  | i + 1 => cs[i]? = some '\n'

/-- Lines start behind line feeds, and at the front: one character in front shifts the others by
one. -/
theorem isLineStart_cons_succ {c : Char} {cs : List Char} {i : Nat} :
    IsLineStart (c :: cs) (i + 1) ↔ IsLineStart cs i ∧ (i = 0 → c = '\n') := by
  cases i <;> simp [IsLineStart]

/-- What holds of all characters in front holds of the first one. -/
theorem forall_mem_head?_append {front : List Char} (hne : front ≠ []) {P : Char → Prop}
    (h : ∀ c ∈ front, P c) (rest : List Char) : ∀ c ∈ (front ++ rest).head?, P c := by
  intro c hc
  rw [List.head?_append_of_ne_nil _ hne] at hc
  exact h c (List.mem_of_mem_head? hc)

/-- **The longest run of characters of a kind** is the run in front that another character, or the
end, follows. -/
theorem span_eq_iff {p : Char → Bool} {cs run rest : List Char} :
    cs.takeWhile p = run ∧ cs.dropWhile p = rest ↔
      cs = run ++ rest ∧ (∀ c ∈ run, p c = true) ∧ ∀ c ∈ rest.head?, p c = false := by
  constructor
  · rintro ⟨rfl, rfl⟩
    refine ⟨List.takeWhile_append_dropWhile.symm, List.all_eq_true.1 List.all_takeWhile, ?_⟩
    have hnot := List.head?_dropWhile_not p cs
    intro c hc
    rw [Option.mem_def.1 hc] at hnot
    simpa using hnot
  · rintro ⟨rfl, hrun, hrest⟩
    rw [List.takeWhile_append_of_pos hrun, List.dropWhile_append_of_pos hrun]
    cases rest with
    | nil => exact ⟨List.append_nil _, rfl⟩
    | cons c rest =>
      have hc : ¬ p c = true := by simp [hrest c rfl]
      rw [List.takeWhile_cons_of_neg hc, List.dropWhile_cons_of_neg hc]
      exact ⟨List.append_nil _, rfl⟩

end Text

namespace Ticket

open Text (IsGap IsField IsLineStart isBlank isLineStart_cons_succ isWordCharacter
  forall_mem_head?_append)

/-- Do the characters start with an acknowledgement of the ticket? -/
def Acknowledges (t : Ticket) (cs : List Char) : Prop :=
  ∃ gap gap' rest,
    cs = "job".toList ++ (gap ++ (t.text.toList ++ (gap' ++ ("at".toList ++ rest)))) ∧
    IsGap gap ∧ IsField t.text.toList ∧ IsGap gap' ∧ ∀ c ∈ rest.head?, isWordCharacter c = false

variable {cs rest : List Char} {t : Ticket}

/-! ### One place -/

/-- What is left after a fixed word is what stands behind it. -/
theorem after?_eq_some_iff {word : List Char} : after? word cs = some rest ↔ cs = word ++ rest := by
  induction word generalizing cs with
  | nil => simp [after?]
  | cons w word ih =>
    cases cs with
    | nil => simp [after?]
    | cons c cs =>
      rw [after?]
      split
      · rename_i hw
        simp [ih, hw]
      · rename_i hw
        simpa using fun hc _ => hw hc.symm

/-- All the blanks there are belong to the gap: what is left does not start with one. -/
theorem afterBlanks?_eq_some_iff : afterBlanks? cs = some rest ↔
    ∃ gap, cs = gap ++ rest ∧ IsGap gap ∧ ∀ c ∈ rest.head?, isBlank c = false := by
  cases cs with
  | nil =>
    refine iff_of_false nofun ?_
    rintro ⟨gap, hnil, hgap, -⟩
    exact hgap.1 (List.append_eq_nil_iff.1 hnil.symm).1
  | cons b cs =>
    rw [afterBlanks?]
    constructor
    · intro h
      split at h
      · rename_i hb
        obtain ⟨hcs, hall, hrest⟩ := Text.span_eq_iff.1 ⟨rfl, Option.some.inj h⟩
        exact ⟨b :: cs.takeWhile isBlank, congrArg (b :: ·) hcs,
          ⟨List.cons_ne_nil _ _, List.forall_mem_cons.2 ⟨hb, hall⟩⟩, hrest⟩
      · cases h
    · rintro ⟨gap, hcs, hgap, hrest⟩
      cases gap with
      | nil => exact absurd rfl hgap.1
      | cons b' gap =>
        rw [List.cons_append, List.cons.injEq] at hcs
        obtain ⟨rfl, hcs⟩ := hcs
        obtain ⟨hb, hall⟩ := List.forall_mem_cons.1 hgap.2
        rw [if_pos hb, (Text.span_eq_iff.2 ⟨hcs, hall, hrest⟩).2]

/-- A word ends at the end of the text, or before a character of no word. -/
theorem atWordEnd_iff : atWordEnd cs = true ↔ ∀ c ∈ cs.head?, isWordCharacter c = false := by
  cases cs <;> simp [atWordEnd]

/-- What the reader does: it takes the ticket out between two gaps. -/
theorem acknowledged?_steps : acknowledged? cs = some t ↔
    ∃ afterJob start afterTicket afterAt, after? "job".toList cs = some afterJob ∧
      afterBlanks? afterJob = some start ∧
      start.takeWhile (!isBlank ·) = t.text.toList ∧ t.text.toList ≠ [] ∧
      afterBlanks? (start.dropWhile (!isBlank ·)) = some afterTicket ∧
      after? "at".toList afterTicket = some afterAt ∧ atWordEnd afterAt = true := by
  simp only [acknowledged?, Option.bind_eq_bind, Option.bind_eq_some_iff]
  constructor
  · rintro ⟨afterJob, hjob, start, hgap, h⟩
    split at h
    · cases h
    · rename_i hne
      obtain ⟨afterTicket, hgap', h⟩ := Option.bind_eq_some_iff.1 h
      obtain ⟨afterAt, hat, h⟩ := Option.bind_eq_some_iff.1 h
      split at h
      · rename_i hend
        obtain rfl := Option.some.inj h
        refine ⟨afterJob, start, afterTicket, afterAt, hjob, hgap, ?_, ?_, hgap', hat, hend⟩
        · rw [String.toList_ofList]
        · simpa using hne
      · cases h
  · rintro ⟨afterJob, start, afterTicket, afterAt, hjob, hgap, hword, hne, hgap', hat, hend⟩
    refine ⟨afterJob, hjob, start, hgap, ?_⟩
    rw [hword, if_neg (by simpa using hne), hgap', Option.bind_some, hat, Option.bind_some,
      if_pos hend, String.ofList_toList]

/-- **The reader finds the acknowledgement that starts here,** however its blanks are taken. -/
theorem acknowledged?_eq_some_iff : acknowledged? cs = some t ↔ t.Acknowledges cs := by
  simp only [acknowledged?_steps, after?_eq_some_iff, afterBlanks?_eq_some_iff, atWordEnd_iff]
  constructor
  · rintro ⟨-, start, -, rest, rfl, ⟨gap, rfl, hgap, -⟩, hword, hne, ⟨gap', hrest, hgap', -⟩, rfl,
      hend⟩
    obtain ⟨hstart, hfield, -⟩ := Text.span_eq_iff.1 ⟨hword, hrest⟩
    refine ⟨gap, gap', rest, hstart ▸ rfl, hgap, ⟨hne, ?_⟩, hgap', hend⟩
    simpa using hfield
  · rintro ⟨gap, gap', rest, rfl, hgap, hticket, hgap', hend⟩
    have hat : IsField "at".toList := by decide
    have hword : ∀ c ∈ t.text.toList, (!isBlank c) = true := by simpa using hticket.2
    have hstop : ∀ c ∈ (gap' ++ ("at".toList ++ rest)).head?, (!isBlank c) = false := fun c hc => by
      simp [forall_mem_head?_append hgap'.1 hgap'.2 _ c hc]
    obtain ⟨hrun, hrest⟩ := Text.span_eq_iff.2 ⟨rfl, hword, hstop⟩
    refine ⟨_, _, _, rest, rfl, ⟨gap, rfl, hgap, ?_⟩, hrun, hticket.1,
      ⟨gap', hrest, hgap', ?_⟩, rfl, hend⟩
    · exact forall_mem_head?_append hticket.1 hticket.2 _
    · exact forall_mem_head?_append hat.1 hat.2 _

/-! ### The first place -/

/-- Nothing reads as an acknowledgement where the text has ended. -/
theorem not_acknowledges_nil (t : Ticket) : ¬ t.Acknowledges [] := by
  rintro ⟨gap, gap', rest, hnil, -⟩
  cases hnil

/-- **The search finds the first acknowledgement** that starts where a line does, of which the first
place is one if `lineStart` says so. -/
theorem search?_eq_some_iff {lineStart : Bool} : search? lineStart cs = some t ↔
    ∃ i, (IsLineStart cs i ∧ (i = 0 → lineStart = true)) ∧ t.Acknowledges (cs.drop i) ∧
      ∀ j < i, IsLineStart cs j ∧ (j = 0 → lineStart = true) →
        ∀ t' : Ticket, ¬ t'.Acknowledges (cs.drop j) := by
  induction cs generalizing lineStart with
  | nil =>
    refine iff_of_false nofun ?_
    rintro ⟨i, -, hack, -⟩
    rw [List.drop_nil] at hack
    exact not_acknowledges_nil t hack
  | cons c cs ih =>
    rw [search?]
    split
    · -- Something is found right here, so nothing further on is looked at.
      rename_i t₀ hfound
      have hhere : lineStart = true ∧ t₀.Acknowledges (c :: cs) := by
        split at hfound
        · exact ⟨‹_›, acknowledged?_eq_some_iff.1 hfound⟩
        · cases hfound
      constructor
      · rintro ⟨⟩
        exact ⟨0, ⟨trivial, fun _ => hhere.1⟩, hhere.2, nofun⟩
      · rintro ⟨i, -, hack, hnone⟩
        cases i with
        | zero =>
          rw [List.drop_zero, ← acknowledged?_eq_some_iff] at hack
          exact (acknowledged?_eq_some_iff.2 hhere.2).symm.trans hack
        | succ i => exact absurd hhere.2 (hnone 0 (Nat.succ_pos i) ⟨trivial, fun _ => hhere.1⟩ t₀)
    · -- Nothing starts here, so the places are those of the rest, one further on.
      rename_i hnone
      have hnot : lineStart = true → ∀ t' : Ticket, ¬ t'.Acknowledges (c :: cs) := by
        intro hline t' hack
        rw [if_pos hline, acknowledged?_eq_some_iff.2 hack] at hnone
        cases hnone
      rw [ih]
      constructor
      · rintro ⟨i, hplace, hack, hfirst⟩
        refine ⟨i + 1, ⟨isLineStart_cons_succ.2 ?_, nofun⟩, hack, fun j hj hplace' => ?_⟩
        · simpa using hplace
        · cases j with
          | zero => exact hnot (hplace'.2 rfl)
          | succ j =>
            refine hfirst j (Nat.lt_of_succ_lt_succ hj) ?_
            simpa using isLineStart_cons_succ.1 hplace'.1
      · rintro ⟨i, hplace, hack, hfirst⟩
        cases i with
        | zero => exact absurd hack (hnot (hplace.2 rfl) t)
        | succ i =>
          refine ⟨i, by simpa using isLineStart_cons_succ.1 hplace.1, hack, fun j hj hplace' => ?_⟩
          refine hfirst (j + 1) (Nat.succ_lt_succ hj) ⟨isLineStart_cons_succ.2 ?_, nofun⟩
          simpa using hplace'

/-- **A ticket is read where it is acknowledged first.** -/
theorem ofText?_eq_some_iff {text : String} : ofText? text = some t ↔
    ∃ i, IsLineStart text.toList i ∧ t.Acknowledges (text.toList.drop i) ∧
      ∀ j < i, IsLineStart text.toList j →
        ∀ t' : Ticket, ¬ t'.Acknowledges (text.toList.drop j) := by
  rw [ofText?, search?_eq_some_iff]
  simp

/-! ### Behind other lines -/

/-- In the middle of a line nothing is found before its end. -/
theorem search?_false_append {line : List Char} (h : '\n' ∉ line) (rest : List Char) :
    search? false (line ++ '\n' :: rest) = search? true rest := by
  induction line with
  | nil => simp [search?]
  | cons c line ih =>
    rw [List.mem_cons, not_or] at h
    have hfeed : decide (c = '\n') = false := decide_eq_false fun hc => h.1 hc.symm
    rw [List.cons_append, search?, if_neg Bool.false_ne_true, hfeed]
    exact ih h.2

/-- A line that does not start with `job` is passed over. -/
theorem search?_line {line : List Char} (hfeed : '\n' ∉ line) (hjob : ¬ "job".toList <+: line)
    (rest : List Char) : search? true (line ++ '\n' :: rest) = search? true rest := by
  have hnone : acknowledged? (line ++ '\n' :: rest) = none := by
    rw [Option.eq_none_iff_forall_ne_some]
    intro t hack
    obtain ⟨gap, gap', end', hcs, -⟩ := acknowledged?_eq_some_iff.1 hack
    rcases List.append_eq_append_iff.1 hcs with ⟨more, hword, hmore⟩ | ⟨more, hline, -⟩
    · cases more with
      | nil => exact hjob ⟨[], by rw [hword, List.append_nil, List.append_nil]⟩
      | cons c more =>
        have hfeed : '\n' ∈ "job".toList := by
          rw [hword, (List.cons.inj hmore).1]
          exact List.mem_append_right _ List.mem_cons_self
        exact absurd hfeed (by decide)
    · exact hjob ⟨more, hline.symm⟩
  cases line with
  | nil =>
    rw [List.nil_append] at hnone ⊢
    rw [search?, if_pos rfl, hnone]
    rfl
  | cons c line =>
    rw [List.mem_cons, not_or] at hfeed
    have hc : decide (c = '\n') = false := decide_eq_false fun hc => hfeed.1 hc.symm
    rw [List.cons_append] at hnone ⊢
    rw [search?, if_pos rfl, hnone, hc]
    exact search?_false_append hfeed.2 rest

/-- So is a text of such lines. -/
theorem search?_lines {lines : List String}
    (h : ∀ line ∈ lines, '\n' ∉ line.toList ∧ ¬ "job".toList <+: line.toList) (rest : List Char) :
    search? true ((String.join (lines.map (· ++ "\n"))).toList ++ rest) = search? true rest := by
  induction lines with
  | nil => rfl
  | cons line lines ih =>
    obtain ⟨hline, hlines⟩ := List.forall_mem_cons.1 h
    have hjoin : (String.join ((line :: lines).map (· ++ "\n"))).toList ++ rest
        = line.toList ++ '\n' :: ((String.join (lines.map (· ++ "\n"))).toList ++ rest) := by
      simp [String.toList_join]
    rw [hjoin, search?_line hline.1 hline.2, ih hlines]

/-- **The first acknowledgement counts.**  A ticket is read from a text exactly if it is
acknowledged at the start of some line, and nothing is at the start of a line before.  So the line
that acknowledges a ticket may stand behind any lines that do not start with `job`, whatever
follows. -/
theorem first_acknowledgement_counts :
    (∀ (text : String) (t : Ticket), ofText? text = some t ↔
      ∃ i, IsLineStart text.toList i ∧ t.Acknowledges (text.toList.drop i) ∧
        ∀ j < i, IsLineStart text.toList j →
          ∀ t' : Ticket, ¬ t'.Acknowledges (text.toList.drop j)) ∧
    ∀ (lines : List String) (t : Ticket) (rest : String),
      (∀ line ∈ lines, '\n' ∉ line.toList ∧ ¬ "job".toList <+: line.toList) →
      IsField t.text.toList →
      ofText? (String.join (lines.map (· ++ "\n")) ++ ("job " ++ t.text ++ " at " ++ rest))
        = some t := by
  refine ⟨fun text t => ofText?_eq_some_iff, fun lines t rest hlines hticket => ?_⟩
  rw [ofText?, String.toList_append, search?_lines hlines, search?_eq_some_iff]
  refine ⟨0, ⟨trivial, fun _ => rfl⟩, ?_, nofun⟩
  refine ⟨[' '], [' '], ' ' :: rest.toList, ?_, by decide, hticket, by decide, ?_⟩
  · simp [String.toList_append]
  · rintro c ⟨⟩
    decide +kernel

/-- Three lines, one of them with an acknowledgement in its middle and one without anything. -/
def warnings : List String :=
  ["warning: commands will be executed using /bin/sh", "no job 3 at noon", ""]

/-- An acknowledgement behind two lines of warnings, which the line that counts is not one of. -/
theorem first_acknowledgement_counts_warnings :
    (∀ line ∈ warnings, '\n' ∉ line.toList ∧ ¬ "job".toList <+: line.toList) ∧
      IsField "17".toList ∧
      ofText? (String.join (warnings.map (· ++ "\n")) ++
        ("job " ++ "17" ++ " at " ++ "Sat Oct 17 10:00:00 2026\n")) = some ⟨"17"⟩ := by
  have hlines : ∀ line ∈ warnings, '\n' ∉ line.toList ∧ ¬ "job".toList <+: line.toList := by
    decide
  have hticket : IsField "17".toList := by decide
  exact ⟨hlines, hticket, first_acknowledgement_counts.2 warnings ⟨"17"⟩ _ hlines hticket⟩

/-- Two that break off, and one that goes on in the next line. -/
example : ofText? "job 9 atlas\njob\njob\n\t17 at" = some ⟨"17"⟩ := by decide +kernel

end Ticket
end JobSpool
