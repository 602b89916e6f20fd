/-
# Tickets that stay held

Each call to the scheduler is refused, and then nothing changes, or it does the one thing that it is
for (`submit_cases`, `cancelOne_cases`, `start_cases`, `finish_cases`).

A ticket is held (`MemoryScheduler.Holds`) from the submission that gave it, until its command
has finished or was dropped.  Taking another line, starting a command, and dropping other
tickets all leave it held, and so does switching the scheduler off and on.

While a ticket is held the scheduler never answers that it holds nothing
(`not_holdsNothing`): its listing has a line for the ticket, and the line is read back as an
entry.  This is what keeps an input from a sweep.
-/

import JobSpool.Proofs.Lines
import JobSpool.Proofs.Sweeps
import JobSpool.Scheduler.Memory

namespace JobSpool
namespace MemoryScheduler

/-! ### What a call does -/

/-- The command that is held when a line is taken. -/
def taken (s : MemoryScheduler) (line : String) : HeldCommand :=
  ⟨⟨Text.writeCount s.nextId⟩, line, false⟩

/-- The scheduler once it has taken a line. -/
def taking (s : MemoryScheduler) (line : String) : MemoryScheduler :=
  { s with
    nextId := s.nextId + 1
    held := s.held ++ [s.taken line]
    submitted := s.submitted ++ [line] }

/-- **A line is refused, and nothing changes, or it is held from then on.** -/
theorem submit_cases (line : String) (s : MemoryScheduler) :
    ((s.available = false ∨ Text.isBlankText line = true) ∧
      ∃ cause, submit line s = (.error cause, s)) ∨
    ((s.available = true ∧ Text.isBlankText line = false) ∧
      submit line s = (.ok (s.taken line).ticket, s.taking line)) := by
  rw [submit]
  cases hon : s.available with
  | false => exact Or.inl ⟨Or.inl rfl, _, rfl⟩
  | true =>
    cases hblank : Text.isBlankText line with
    | true => exact Or.inl ⟨Or.inr rfl, _, rfl⟩
    | false => exact Or.inr ⟨⟨rfl, rfl⟩, by simp [taking, taken, hon]⟩

/-- **A ticket is dropped if it is held and has not started,** and else nothing changes. -/
theorem cancelOne_cases (ticket : Ticket) (s : MemoryScheduler) :
    (¬ (s.available = true ∧ ∃ h, s.find? ticket = some h ∧ h.executing = false) ∧
      ∃ cause, cancelOne ticket s = (.error cause, s)) ∨
    ((s.available = true ∧ ∃ h, s.find? ticket = some h ∧ h.executing = false) ∧
      cancelOne ticket s = (.ok (), { s with held := s.held.eraseP (·.ticket == ticket) })) := by
  rw [cancelOne]
  cases hon : s.available with
  | false => exact Or.inl ⟨fun h => Bool.noConfusion h.1, _, rfl⟩
  | true =>
    cases hfind : s.find? ticket with
    | none =>
      refine Or.inl ⟨?_, _, rfl⟩
      rintro ⟨-, h, hsome, -⟩
      cases hsome
    | some held =>
      cases hexec : held.executing with
      | true =>
        refine Or.inl ⟨?_, _, if_pos hexec⟩
        rintro ⟨-, h, hsame, hnot⟩
        rw [← Option.some.inj hsame, hexec] at hnot
        cases hnot
      | false => exact Or.inr ⟨⟨rfl, held, rfl, hexec⟩, by simp [hexec]⟩

/-- Marking a ticket that is not held changes nothing. -/
theorem markStarted_of_find?_eq_none {ticket : Ticket} {held : List HeldCommand}
    (h : held.find? (·.ticket == ticket) = none) : markStarted ticket held = held := by
  induction held with
  | nil => rfl
  | cons first held ih =>
    rw [List.find?_cons] at h
    rw [markStarted]
    split at h
    · cases h
    · rename_i hfirst
      rw [if_neg (by simp [hfirst]), ih h]

/-- **A command is started if it is held,** and else nothing changes. -/
theorem start_cases (ticket : Ticket) (s : MemoryScheduler) :
    (s.find? ticket = none ∧ start ticket s = (none, s)) ∨
    ∃ h, s.find? ticket = some h ∧
      start ticket s = (some h.line, { s with held := markStarted ticket s.held }) := by
  rw [start]
  cases hfind : s.find? ticket with
  | none =>
    rw [markStarted_of_find?_eq_none hfind]
    exact Or.inl ⟨rfl, rfl⟩
  | some h => exact Or.inr ⟨h, rfl, rfl⟩

/-- **A command is finished if it is held,** and else nothing changes. -/
theorem finish_cases (ticket : Ticket) (s : MemoryScheduler) :
    (s.find? ticket = none ∧ finish ticket s = (false, s)) ∨
    ∃ h, s.find? ticket = some h ∧
      finish ticket s = (true, { s with held := s.held.filter (·.ticket != ticket) }) := by
  rw [finish]
  cases hfind : s.find? ticket with
  | none =>
    have hnone : ∀ h ∈ s.held, ¬ (h.ticket == ticket) = true := List.find?_eq_none.1 hfind
    have hany : s.held.any (·.ticket == ticket) = false := List.any_eq_false.2 hnone
    have hkept : s.held.filter (·.ticket != ticket) = s.held :=
      List.filter_eq_self.2 fun h hmem => by simpa [bne] using hnone h hmem
    rw [hany, hkept]
    exact Or.inl ⟨rfl, rfl⟩
  | some h =>
    have hfound : s.held.find? (·.ticket == ticket) = some h := hfind
    have hticket : (h.ticket == ticket) = true := by simpa using List.find?_some hfound
    have hany : s.held.any (·.ticket == ticket) = true :=
      List.any_eq_true.2 ⟨h, List.mem_of_find?_eq_some hfound, hticket⟩
    rw [hany]
    exact Or.inr ⟨h, rfl, rfl⟩

/-! ### Tickets that are held -/

/-- Does the scheduler hold a command under a ticket? -/
def Holds (s : MemoryScheduler) (ticket : Ticket) : Prop :=
  ∃ h ∈ s.held, h.ticket = ticket

variable {s : MemoryScheduler} {ticket : Ticket}

/-- Taking another line leaves a ticket held. -/
theorem holds_submit (line : String) (h : s.Holds ticket) : (submit line s).2.Holds ticket := by
  rw [submit]
  split
  · exact h
  · split
    · exact h
    · obtain ⟨held, hmem, hticket⟩ := h
      exact ⟨held, List.mem_append_left _ hmem, hticket⟩

/-- **A ticket that is given is held.** -/
theorem holds_of_submit {line : String} {s' : MemoryScheduler}
    (h : submit line s = (.ok ticket, s')) : s'.Holds ticket := by
  rw [submit] at h
  split at h
  · cases h
  · split at h
    · cases h
    · cases h
      exact ⟨_, List.mem_append_right _ (List.mem_singleton_self _), rfl⟩

/-- Dropping another ticket leaves a ticket held. -/
theorem holds_cancelOne {other : Ticket} (hne : other ≠ ticket) (h : s.Holds ticket) :
    (cancelOne other s).2.Holds ticket := by
  rw [cancelOne]
  split
  · exact h
  · split
    · exact h
    · split
      · exact h
      · obtain ⟨held, hmem, hticket⟩ := h
        refine ⟨held, ?_, hticket⟩
        have hother : ¬ (held.ticket == other) = true := by
          rw [beq_iff_eq, hticket]
          exact fun heq => hne heq.symm
        exact (List.mem_eraseP_of_neg (p := fun x : HeldCommand => x.ticket == other) hother).2 hmem

/-- **Dropping other tickets leaves a ticket held.** -/
theorem holds_cancel {tickets : List Ticket} (hnot : ticket ∉ tickets) (h : s.Holds ticket) :
    (cancel tickets s).2.Holds ticket := by
  induction tickets generalizing s with
  | nil => exact h
  | cons other tickets ih =>
    rw [List.mem_cons, not_or] at hnot
    have hfirst := holds_cancelOne (fun heq => hnot.1 heq.symm) h
    rw [cancel]
    split
    · rename_i hone
      rwa [hone] at hfirst
    · rename_i hone
      rw [hone] at hfirst
      exact ih hnot.2 hfirst

/-- Marking a command as started takes none away. -/
theorem ticket_mem_markStarted (other : Ticket) {held : List HeldCommand}
    (h : ∃ x ∈ held, x.ticket = ticket) : ∃ x ∈ markStarted other held, x.ticket = ticket := by
  induction held with
  | nil =>
    obtain ⟨x, hx, -⟩ := h
    cases hx
  | cons first held ih =>
    obtain ⟨x, hx, hticket⟩ := h
    rw [markStarted]
    split
    · rcases List.mem_cons.1 hx with rfl | hx
      · exact ⟨_, List.mem_cons_self, hticket⟩
      · exact ⟨x, List.mem_cons_of_mem _ hx, hticket⟩
    · rcases List.mem_cons.1 hx with rfl | hx
      · exact ⟨x, List.mem_cons_self, hticket⟩
      · obtain ⟨y, hy, hticket'⟩ := ih ⟨x, hx, hticket⟩
        exact ⟨y, List.mem_cons_of_mem _ hy, hticket'⟩

/-- **A command that has started is still held.** -/
theorem holds_start (other : Ticket) (h : s.Holds ticket) : (start other s).2.Holds ticket :=
  ticket_mem_markStarted other h

/-- Switching the scheduler on or off leaves a ticket held. -/
theorem holds_setAvailable (available : Bool) (h : s.Holds ticket) :
    (setAvailable available s).Holds ticket :=
  h

/-- Asking what is held changes nothing. -/
theorem pending_snd (now : Instant) (s : MemoryScheduler) : (pending now s).2 = s := by
  rw [pending]
  split <;> rfl

/-- **While a ticket is held, the scheduler never says that it holds nothing.** -/
theorem not_holdsNothing (now : Instant) (h : s.Holds ticket) :
    ¬ Spool.HoldsNothing (pending now s).1 := by
  rintro ⟨queue, hanswer, hempty⟩
  rw [pending] at hanswer
  split at hanswer
  · cases hanswer
  · cases hanswer
    obtain ⟨held, hmem, -⟩ := h
    refine PendingQueue.entries_ne_nil (c := 'p') ?_ (by decide) hempty
    rw [listing, String.toList_join, List.mem_flatMap]
    refine ⟨listingLine now held, List.mem_map_of_mem hmem, ?_⟩
    rw [listingLine, String.toList_append]
    exact List.mem_append_right _ (by decide)

end MemoryScheduler
end JobSpool
