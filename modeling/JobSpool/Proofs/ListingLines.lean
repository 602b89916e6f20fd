/-
# The listing is read back

The scheduler prints its listing as text, one line for each command it holds: the ticket, a tab,
the date, a mark that says whether the command has started, and a name.  The date has five fields,
whatever the instant is (`Instant.fields_listed`); that the day may be filled up with a blank does
not matter, since blanks in front of a field do not.  So the mark is always the seventh field, which
is where a reader looks for it (`MemoryScheduler.ofLine?_shownLine`).

No line holds a line feed of its own, so the lines are told apart, and the queue that is read has
one entry for each command, in the same order, with its ticket and whether it has started
(`MemoryScheduler.entries_listing`).
-/

import JobSpool.Proofs.Lines
import JobSpool.Scheduler.Memory
import Mathlib.Data.List.Basic

namespace JobSpool

namespace Text

/-- Is a run of characters read as one field: is it not empty, and without a blank? -/
def IsField (word : List Char) : Prop :=
  word ≠ [] ∧ ∀ c ∈ word, isBlank c = false

variable {word : List Char}

/-- A field, as it can be tested: not empty, and nothing in it is blank. -/
theorem isField_iff : IsField word ↔ (!word.isEmpty && word.all (!isBlank ·)) = true := by
  simp [IsField]

instance (word : List Char) : Decidable (IsField word) :=
  decidable_of_iff _ isField_iff.symm

/-- Two fields without a blank between them are one. -/
theorem IsField.append {more : List Char} (h : IsField word) (hmore : IsField more) :
    IsField (word ++ more) := by
  refine ⟨List.append_ne_nil_of_left_ne_nil h.1 _, fun c hc => ?_⟩
  rcases List.mem_append.1 hc with hc | hc
  · exact h.2 c hc
  · exact hmore.2 c hc

/-- Nothing in a field ends a line. -/
theorem IsField.ne_of_mem (h : IsField word) {c : Char} (hc : c ∈ word) : c ≠ '\n' ∧ c ≠ '\r' := by
  constructor <;> rintro rfl
  · exact absurd (h.2 _ hc) (by decide)
  · exact absurd (h.2 _ hc) (by decide)

/-- A number in decimal is a field, -/
theorem isField_toDigits (n : Nat) : IsField (Nat.toDigits 10 n) :=
  ⟨Nat.toDigits_ne_nil, fun _ hc =>
    isBlank_of_isDigit (Nat.isDigit_of_mem_toDigits (by decide) (by decide) hc)⟩

/-- and so is a count. -/
theorem isField_writeCount (n : UInt64) : IsField (writeCount n).toList := by
  rw [toList_writeCount]
  exact isField_toDigits n.toNat

/-- A number that is filled up with zeros is one field. -/
theorem isField_filled_zero (width n : Nat) : IsField (filled '0' width n).toList := by
  rw [filled, String.toList_ofList]
  refine ⟨List.append_ne_nil_of_right_ne_nil _ (isField_toDigits n).1, fun c hc => ?_⟩
  rcases List.mem_append.1 hc with hc | hc
  · rw [List.eq_of_mem_replicate hc]
    decide
  · exact (isField_toDigits n).2 c hc

end Text

/-! ### The date -/

namespace Date

/-- Is each of the names one field? -/
theorem isField_getD {names : List String} (h : ∀ name ∈ names, Text.IsField name.toList) {k : Nat}
    (hk : k < names.length) : Text.IsField (names.getD k "").toList := by
  rw [List.getD_eq_getElem?_getD, List.getElem?_eq_getElem hk, Option.getD_some]
  exact h _ (List.getElem_mem hk)

/-- **A month has a name.** -/
theorem month_ofDay_lt (n : Int) : (ofDay n).month - 1 < monthNames.length := by
  have hpos : 0 ≤ (n + 719468).fmod daysPerEra := Int.fmod_nonneg_of_pos _ (by decide)
  have hlt : (n + 719468).fmod daysPerEra < daysPerEra := Int.fmod_lt_of_pos _ (by decide)
  have hday : ((n + 719468).fmod daysPerEra).toNat < 146097 := by
    simp only [daysPerEra] at hpos hlt ⊢
    omega
  have hnames : monthNames.length = 12 := rfl
  rw [hnames]
  simp only [ofDay]
  generalize ((n + 719468).fmod daysPerEra).toNat = dayOfEra at hday
  split <;> omega

/-- A day of the week has a name. -/
theorem weekday_lt (n : Int) : (n.fmod 7).toNat < dayNames.length := by
  have hpos : 0 ≤ n.fmod 7 := Int.fmod_nonneg_of_pos _ (by decide)
  have hlt : n.fmod 7 < 7 := Int.fmod_lt_of_pos _ (by decide)
  have hnames : dayNames.length = 7 := rfl
  omega

end Date

namespace Instant

/-- The time of day is a field. -/
theorem isField_clock (t : Instant) : Text.IsField (clock t ":").toList := by
  have hcolon : Text.IsField ":".toList := by decide
  rw [clock, String.intercalate_cons_cons, String.intercalate_cons_cons,
    String.intercalate_singleton]
  simp only [String.toList_append]
  exact (((Text.isField_filled_zero _ _).append hcolon).append
    (((Text.isField_filled_zero _ _).append hcolon).append (Text.isField_filled_zero _ _)))

/-- The fields of a date. -/
def listedFields (t : Instant) : List (List Char) :=
  [(Date.dayNames.getD ((day t).fmod 7).toNat "").toList,
    (Date.monthNames.getD ((date t).month - 1) "").toList,
    Nat.toDigits 10 (date t).day, (clock t ":").toList, (year t).toList]

/-- A date is its fields, each with a blank in front but the first, and the day with some more. -/
theorem toList_listed (t : Instant) : t.listed.toList
    = (Date.dayNames.getD ((day t).fmod 7).toNat "").toList ++ ' ' ::
      ((Date.monthNames.getD ((date t).month - 1) "").toList ++ ' ' ::
      (List.replicate (2 - (Nat.toDigits 10 (date t).day).length) ' ' ++
      (Nat.toDigits 10 (date t).day ++ ' ' ::
      ((clock t ":").toList ++ ' ' :: (year t).toList)))) := by
  simp only [listed, filled, String.intercalate_cons_cons, String.intercalate_singleton,
    String.toList_append, String.toList_ofList]
  simp

/-- **A date is read as five fields,** at any instant. -/
theorem fields_listed (t : Instant) {b : Char} (hb : Text.isBlank b = true) (rest : List Char) :
    Text.fields (t.listed.toList ++ b :: rest) = t.listedFields ++ Text.fields rest := by
  have hblank : Text.isBlank ' ' = true := by decide
  have hweekday := Date.isField_getD (by decide) (Date.weekday_lt (day t))
  have hmonth : Text.IsField (Date.monthNames.getD ((date t).month - 1) "").toList :=
    Date.isField_getD (by decide) (Date.month_ofDay_lt (day t))
  have hday := Text.isField_toDigits (date t).day
  have hyear : Text.IsField (year t).toList := Text.isField_filled_zero _ _
  simp only [toList_listed, List.append_assoc, List.cons_append]
  rw [Text.fields_append hweekday.1 hweekday.2 hblank, Text.fields_append hmonth.1 hmonth.2 hblank,
    Text.fields_replicate_append hblank, Text.fields_append hday.1 hday.2 hblank,
    Text.fields_append t.isField_clock.1 t.isField_clock.2 hblank,
    Text.fields_append hyear.1 hyear.2 hb]
  rfl

/-- Nothing in a date ends a line. -/
theorem ne_of_mem_listed (t : Instant) {c : Char} (hc : c ∈ t.listed.toList) :
    c ≠ '\n' ∧ c ≠ '\r' := by
  have hweekday := Date.isField_getD (by decide) (Date.weekday_lt (day t))
  have hmonth := Date.isField_getD (by decide) (Date.month_ofDay_lt (day t))
  have hyear : Text.IsField (year t).toList := Text.isField_filled_zero _ _
  have hspace : ' ' ≠ '\n' ∧ ' ' ≠ '\r' := by decide
  simp only [toList_listed, List.mem_append, List.mem_cons] at hc
  rcases hc with hc | rfl | hc | rfl | hc | hc | rfl | hc | rfl | hc
  · exact hweekday.ne_of_mem hc
  · exact hspace
  · exact hmonth.ne_of_mem hc
  · exact hspace
  · rw [List.eq_of_mem_replicate hc]
    exact hspace
  · exact (Text.isField_toDigits _).ne_of_mem hc
  · exact hspace
  · exact t.isField_clock.ne_of_mem hc
  · exact hspace
  · exact hyear.ne_of_mem hc

end Instant

/-! ### The listing -/

namespace MemoryScheduler

variable {h : HeldCommand}

/-- The line of the listing for a command, without the line feed that ends it. -/
def shownLine (now : Instant) (h : HeldCommand) : List Char :=
  h.ticket.text.toList ++ '\t' :: (now.listed.toList ++ ' ' ::
    ((if h.executing then '=' else 'a') :: " profq".toList))

/-- A line of the listing ends in a line feed, and that is all that is not shown. -/
theorem toList_listingLine (now : Instant) (h : HeldCommand) :
    (listingLine now h).toList = shownLine now h ++ ['\n'] := by
  rw [listingLine, shownLine]
  cases h.executing <;> simp [String.toList_append]

/-- The entry that a command has in the queue. -/
def entryOf (now : Instant) (h : HeldCommand) : PendingEntry :=
  ⟨h.ticket, String.ofList (shownLine now h), h.executing⟩

/-- **The line of a command is read as its entry.**  The mark is the seventh field. -/
theorem ofLine?_shownLine (hticket : Text.IsField h.ticket.text.toList) (now : Instant) :
    PendingEntry.ofLine? (shownLine now h) = some (entryOf now h) := by
  have hmark : ∀ mark : Char, Text.isBlank mark = false →
      Text.fields (mark :: " profq".toList) = [[mark], "profq".toList] := by
    intro mark hmark
    have hprofq : " profq".toList = ' ' :: "profq".toList := rfl
    have hname : Text.IsField "profq".toList := by decide
    rw [hprofq, ← List.singleton_append, Text.fields_append (List.cons_ne_nil _ _) (by simpa)
      (by decide), Text.fields_word hname.1 hname.2]
  have hfields : Text.fields (shownLine now h) = h.ticket.text.toList ::
      (now.listedFields ++ [[if h.executing then '=' else 'a'], "profq".toList]) := by
    rw [shownLine, Text.fields_append hticket.1 hticket.2 (by decide),
      Instant.fields_listed now (by decide), hmark _ (by cases h.executing <;> decide)]
  rw [PendingEntry.ofLine?, hfields, entryOf]
  have hseventh : (h.ticket.text.toList ::
      (now.listedFields ++ [[if h.executing then '=' else 'a'], "profq".toList]))[
        PendingEntry.queueField]? = some [if h.executing then '=' else 'a'] := rfl
  simp only [hseventh, String.ofList_toList]
  cases h.executing <;> rfl

/-- What is shown of a command is one line, if its ticket is a field. -/
theorem ne_of_mem_shownLine (hticket : Text.IsField h.ticket.text.toList) (now : Instant) :
    ∀ c ∈ shownLine now h, c ≠ '\n' ∧ c ≠ '\r' := by
  intro c hc
  rw [shownLine, List.mem_append, List.mem_cons, List.mem_append] at hc
  rcases hc with hc | rfl | hc | hc
  · exact hticket.ne_of_mem hc
  · decide
  · exact now.ne_of_mem_listed hc
  · have hprofq : " profq".toList = ' ' :: "profq".toList := rfl
    have hname : Text.IsField "profq".toList := by decide
    rw [List.mem_cons, List.mem_cons, hprofq, List.mem_cons] at hc
    rcases hc with rfl | rfl | rfl | hc
    · decide
    · cases h.executing <;> decide
    · decide
    · exact hname.ne_of_mem hc

/-- **The listing is read back:** one entry for each command that is held, in the same order. -/
theorem entries_listing {s : MemoryScheduler}
    (htickets : ∀ h ∈ s.held, Text.IsField h.ticket.text.toList) (now : Instant) :
    (PendingQueue.ofListing (s.listing now)).entries = s.held.map (entryOf now) := by
  have hlisting : (s.listing now).toList
      = (s.held.map (shownLine now)).flatMap (· ++ ['\n']) := by
    rw [listing, String.toList_join, List.flatMap_map, List.flatMap_map]
    simp only [toList_listingLine]
  have hlines : Text.lines (s.listing now).toList = s.held.map (shownLine now) := by
    rw [hlisting]
    refine Text.lines_flatMap fun line hline => ?_
    obtain ⟨h, hmem, rfl⟩ := List.mem_map.1 hline
    exact ne_of_mem_shownLine (htickets h hmem) now
  rw [PendingQueue.ofListing]
  simp only [hlines, List.filterMap_map]
  exact List.filterMap_eq_map_iff_forall_eq_some.2 fun h hmem =>
    ofLine?_shownLine (htickets h hmem) now

end MemoryScheduler
end JobSpool
