/-
# Dropping several tickets

`cancel_many`: `SPEC_FULL.md`, 4.2 ("best-effort cancellation of a ticket that has not yet
started").

Several tickets are dropped one after another, up to the first that is refused.  By then those in
front of it are gone, and nothing brings them back.  Which ticket is refused can be told beforehand,
from the queue that is shown: it is the first one that the queue does not offer, or that stands in
the list a second time (`MemoryScheduler.RefusedAt`).

What is left is told by `MemoryScheduler.without`, and looking up a ticket there is looking it up
before, unless it is gone (`find?_without`).  From this the two halves are immediate: tickets that
are offered, each once, are all dropped (`cancel_eq_without`), and the next one is refused for what
is known of it then (`cancelOne_eq_refusal`).

Tickets are numbers of 64 bits, and so is the length of the list of all lines that were taken.  That
list holds a line for each ticket, so a scheduler does not run out of tickets (`IsReached`), and one
that was dropped is not given again (`Tracks.ticket_notMem`).
-/

import JobSpool.Proofs.TicketRuns

namespace JobSpool
namespace MemoryScheduler

variable {s s' : MemoryScheduler} {ticket : Ticket} {gone tickets : List Ticket} {log : List Deed}

/-! ### What is left -/

/-- The scheduler without the commands under some tickets. -/
def without (s : MemoryScheduler) (gone : List Ticket) : MemoryScheduler :=
  { s with held := s.held.filter (·.ticket ∉ gone) }

/-- Dropping nothing changes nothing. -/
theorem without_nil (s : MemoryScheduler) : s.without [] = s := by
  simp [without]

/-- Tickets dropped in two goes are dropped in one. -/
theorem without_without (s : MemoryScheduler) (gone more : List Ticket) :
    (s.without gone).without more = s.without (gone ++ more) := by
  simp [without, List.filter_filter, Bool.and_comm]

/-- Dropping one ticket takes its commands out of what is held. -/
theorem held_without_singleton (s : MemoryScheduler) (ticket : Ticket) :
    (s.without [ticket]).held = s.held.filter (·.ticket != ticket) :=
  List.filter_congr fun other _ => by simp [bne, beq_eq_decide]

/-- Different commands keep different tickets when some are dropped. -/
theorem nodup_without (h : (s.held.map (·.ticket)).Nodup) (gone : List Ticket) :
    ((s.without gone).held.map (·.ticket)).Nodup :=
  h.sublist (List.filter_sublist.map _)

/-- **What is left** is what was held and is not gone. -/
theorem mem_held_without_iff : ticket ∈ (s.without gone).held.map (·.ticket) ↔
    ticket ∈ s.held.map (·.ticket) ∧ ticket ∉ gone := by
  simp only [without, List.mem_map, List.mem_filter, decide_eq_true_eq]
  constructor
  · rintro ⟨command, ⟨hmem, hkept⟩, rfl⟩
    exact ⟨⟨command, hmem, rfl⟩, hkept⟩
  · rintro ⟨⟨command, hmem, rfl⟩, hkept⟩
    exact ⟨command, ⟨hmem, hkept⟩, rfl⟩

/-- **What was held is gone or left,** and each ticket is one of the two. -/
theorem perm_append_without (hnodup : (s.held.map (·.ticket)).Nodup) (honce : gone.Nodup)
    (hheld : ∀ ticket ∈ gone, ticket ∈ s.held.map (·.ticket)) :
    (s.held.map (·.ticket)).Perm (gone ++ (s.without gone).held.map (·.ticket)) := by
  have hapart : (gone ++ (s.without gone).held.map (·.ticket)).Nodup :=
    List.nodup_append'.2 ⟨honce, nodup_without hnodup gone,
      fun ticket hmem hleft => (mem_held_without_iff.1 hleft).2 hmem⟩
  refine (List.perm_ext_iff_of_nodup hnodup hapart).2 fun ticket => ?_
  rw [List.mem_append, mem_held_without_iff]
  constructor
  · intro hmem
    by_cases hgone : ticket ∈ gone
    · exact Or.inl hgone
    · exact Or.inr ⟨hmem, hgone⟩
  · rintro (hgone | ⟨hmem, -⟩)
    · exact hheld ticket hgone
    · exact hmem

/-- **What is left is found as before,** and what is gone is not found. -/
theorem find?_without (s : MemoryScheduler) (gone : List Ticket) (ticket : Ticket) :
    (s.without gone).find? ticket = if ticket ∈ gone then none else s.find? ticket := by
  rw [find?, without, List.find?_filter]
  split
  · rename_i hgone
    refine List.find?_eq_none.2 fun command _ => ?_
    simp only [decide_eq_true_eq, beq_iff_eq]
    rintro ⟨hnot, rfl⟩
    exact hnot hgone
  · rename_i hkept
    refine congrArg (s.held.find? ·) (funext fun command => ?_)
    by_cases hticket : command.ticket = ticket <;> simp [hticket, hkept]

/-! ### Tickets that can be dropped -/

/-- Is a command held under the ticket that has not started? -/
def CanDrop (s : MemoryScheduler) (ticket : Ticket) : Prop :=
  ∃ command, s.find? ticket = some command ∧ command.executing = false

/-- A ticket that can be dropped is held. -/
theorem CanDrop.mem_held (h : s.CanDrop ticket) : ticket ∈ s.held.map (·.ticket) := by
  obtain ⟨command, hfind, -⟩ := h
  have hticket : command.ticket = ticket := by simpa using List.find?_some hfind
  exact hticket ▸ List.mem_map_of_mem (List.mem_of_find?_eq_some hfind)

/-- A ticket can be dropped after others exactly if it could before, and is not one of them. -/
theorem canDrop_without_iff :
    (s.without gone).CanDrop ticket ↔ ticket ∉ gone ∧ s.CanDrop ticket := by
  rw [CanDrop, find?_without]
  split
  · rename_i hgone
    exact iff_of_false (by rintro ⟨command, hnone, -⟩; cases hnone) fun h => h.1 hgone
  · rename_i hkept
    exact (and_iff_right hkept).symm

/-- What is told about a ticket that cannot be dropped: it has started, or it is unknown. -/
def refusal (s : MemoryScheduler) (ticket : Ticket) : SchedulerError :=
  if ∃ command ∈ s.held, command.ticket = ticket ∧ command.executing = true then
    .rejected ("Cannot cancel ticket " ++ ticket.text ++ ": already running")
  else .unknownTicket ticket.text

/-- **A ticket that cannot be dropped is refused,** and nothing changes. -/
theorem cancelOne_eq_refusal (hon : s.available = true) (h : ¬ s.CanDrop ticket) :
    cancelOne ticket s = (.error (s.refusal ticket), s) := by
  rw [cancelOne, hon, refusal]
  cases hfind : s.find? ticket with
  | none =>
    have hunknown : ¬ ∃ command ∈ s.held, command.ticket = ticket ∧ command.executing = true := by
      rintro ⟨command, hmem, hticket, -⟩
      exact List.find?_eq_none.1 hfind command hmem (beq_iff_eq.2 hticket)
    rw [if_neg hunknown]
    rfl
  | some command =>
    have hstarted : command.executing = true := by
      rw [← Bool.not_eq_false]
      exact fun hnot => h ⟨command, hfind, hnot⟩
    have hheld : ∃ command ∈ s.held, command.ticket = ticket ∧ command.executing = true :=
      ⟨command, List.mem_of_find?_eq_some hfind, by simpa using List.find?_some hfind, hstarted⟩
    rw [if_pos hheld]
    exact if_pos hstarted

/-- A ticket that can be dropped is. -/
theorem cancelOne_eq_without (hon : s.available = true) (hnodup : (s.held.map (·.ticket)).Nodup)
    (h : s.CanDrop ticket) : cancelOne ticket s = (.ok (), s.without [ticket]) := by
  obtain ⟨command, hfind, hexec⟩ := h
  rcases cancelOne_cases ticket s with ⟨hnot, -⟩ | ⟨-, hdropped⟩
  · exact absurd ⟨hon, command, hfind, hexec⟩ hnot
  · rw [hdropped, eraseP_eq_filter hnodup, ← held_without_singleton]
    rfl

/-- **Tickets that can be dropped all are,** if each is named once. -/
theorem cancel_eq_without (hon : s.available = true) (hnodup : (s.held.map (·.ticket)).Nodup)
    (honce : tickets.Nodup) (hcan : ∀ ticket ∈ tickets, s.CanDrop ticket) :
    cancel tickets s = (.ok (), s.without tickets) := by
  induction tickets generalizing s with
  | nil => rw [without_nil, cancel]
  | cons ticket tickets ih =>
    obtain ⟨hnot, honce⟩ := List.nodup_cons.1 honce
    obtain ⟨hfirst, hcan⟩ := List.forall_mem_cons.1 hcan
    have hleft : ∀ other ∈ tickets, (s.without [ticket]).CanDrop other := fun other hmem => by
      refine canDrop_without_iff.2 ⟨fun heq => hnot ?_, hcan other hmem⟩
      rwa [← List.mem_singleton.1 heq]
    rw [cancel, cancelOne_eq_without hon hnodup hfirst]
    have hon' : (s.without [ticket]).available = true := hon
    have hrest := ih hon' (nodup_without hnodup [ticket]) honce hleft
    rwa [without_without, List.singleton_append] at hrest

/-- Once some are dropped, the others follow. -/
theorem cancel_append (hfront : cancel tickets s = (.ok (), s')) (more : List Ticket) :
    cancel (tickets ++ more) s = cancel more s' := by
  induction tickets generalizing s with
  | nil =>
    obtain rfl := (Prod.mk.inj hfront).2
    rfl
  | cons ticket tickets ih =>
    rw [cancel] at hfront
    rw [List.cons_append, cancel]
    split at hfront
    · cases hfront
    · exact ih hfront

/-- **The next ticket that cannot be dropped** is refused, and those behind it are left. -/
theorem cancel_eq_refusal (hfront : cancel tickets s = (.ok (), s')) (hon : s'.available = true)
    (hnot : ¬ s'.CanDrop ticket) (more : List Ticket) :
    cancel (tickets ++ ticket :: more) s = (.error (s'.refusal ticket), s') := by
  rw [cancel_append hfront, cancel, cancelOne_eq_refusal hon hnot]

/-! ### Runs -/

/-- Is it a scheduler that was new and has been asked some things?  It has a list of all lines that
it took, and the length of a list is a number of 64 bits. -/
def IsReached (s : MemoryScheduler) : Prop :=
  (∃ requests, s = run requests {}) ∧ s.submitted.length < UInt64.size

/-- **Only a line that is accepted is added to those that were taken.** -/
theorem submitted_perform (request : Request) (s : MemoryScheduler) :
    (request.perform s).2.submitted
      = s.submitted ++ (Log.accepted (request.perform s).1.toList).map (·.2) := by
  have hnone : s.submitted = s.submitted ++ ([] : List String) := (List.append_nil _).symm
  cases request with
  | submit line =>
    rw [Request.perform]
    rcases submit_cases line s with ⟨-, cause, hrefused⟩ | ⟨-, htaken⟩
    · rw [hrefused]
      exact hnone
    · rw [htaken]
      rfl
  | start ticket =>
    rw [Request.perform]
    rcases start_cases ticket s with ⟨-, hrefused⟩ | ⟨command, -, hstarted⟩
    · rw [hrefused]
      exact hnone
    · rw [hstarted]
      exact hnone
  | finish ticket =>
    rw [Request.perform]
    rcases finish_cases ticket s with ⟨-, hrefused⟩ | ⟨command, -, hfinished⟩
    · rw [hrefused]
      exact hnone
    · rw [hfinished]
      exact hnone
  | cancel ticket =>
    rw [Request.perform]
    rcases cancelOne_cases ticket s with ⟨-, cause, hrefused⟩ | ⟨-, hdropped⟩
    · rw [hrefused]
      exact hnone
    · rw [hdropped]
      exact hnone
  | setAvailable available => exact hnone

/-- **A scheduler stays in step with its log** while its list of lines has a length, and the log
forgets nothing that was accepted. -/
theorem exists_tracks_run (h : Tracks log s) (requests : List Request)
    (hfew : (run requests s).submitted.length < UInt64.size) :
    ∃ log', Tracks log' (run requests s) ∧ Log.accepted log <+: Log.accepted log' := by
  induction requests using List.reverseRecOn with
  | nil => exact ⟨log, h, List.prefix_rfl⟩
  | append_singleton requests request ih =>
    rw [run_concat] at hfew ⊢
    have hmore := submitted_perform request (run requests s)
    rw [hmore, List.length_append, List.length_map] at hfew
    obtain ⟨log', htracks, hgrows⟩ := ih (by omega)
    have hlength : (Log.accepted log').length = (run requests s).submitted.length := by
      rw [htracks.submitted, List.length_map]
    refine ⟨_, htracks.perform request ?_, ?_⟩
    · rw [Log.accepted_append, List.length_append, hlength]
      exact hfew
    · rw [Log.accepted_append]
      exact hgrows.trans (List.prefix_append _ _)

/-- A scheduler that can be reached has a log of what it accepted, of fewer than 2⁶⁴ commands. -/
theorem IsReached.exists_tracks (h : s.IsReached) :
    ∃ log, Tracks log s ∧ (Log.accepted log).length < UInt64.size := by
  obtain ⟨⟨requests, rfl⟩, hfew⟩ := h
  obtain ⟨log, htracks, -⟩ := exists_tracks_run Tracks.new requests hfew
  refine ⟨log, htracks, ?_⟩
  rwa [htracks.submitted, List.length_map] at hfew

/-- **Commands that are dropped** are outstanding no longer. -/
theorem Tracks.without (h : Tracks log s)
    (hknown : ∀ ticket ∈ gone, ticket ∈ (Log.accepted log).map (·.1)) :
    ∃ log', Tracks log' (s.without gone) ∧ Log.accepted log' = Log.accepted log := by
  induction gone generalizing log s with
  | nil => exact ⟨log, (without_nil s).symm ▸ h, rfl⟩
  | cons ticket gone ih =>
    obtain ⟨hfirst, hknown⟩ := List.forall_mem_cons.1 hknown
    have hdropped : Tracks (log ++ [.dropped ticket]) (s.without [ticket]) := by
      have hended := h.ended (Or.inl rfl) hfirst
      rwa [← held_without_singleton] at hended
    have hsame : Log.accepted (log ++ [.dropped ticket]) = Log.accepted log :=
      (Log.accepted_append _ _).trans (List.append_nil _)
    obtain ⟨log', htracks, haccepted⟩ := ih hdropped (hsame ▸ hknown)
    rw [without_without, List.singleton_append] at htracks
    exact ⟨log', htracks, haccepted.trans hsame⟩

/-- **A ticket that was accepted is not given again,** whatever else is asked. -/
theorem Tracks.ticket_notMem (h : Tracks log s)
    (hknown : ∀ ticket ∈ gone, ticket ∈ (Log.accepted log).map (·.1)) {requests : List Request}
    {line : String} (hsubmit : submit line (run requests s) = (.ok ticket, s'))
    (hfew : s'.submitted.length < UInt64.size) : ticket ∉ gone := by
  intro hmem
  rcases submit_cases line (run requests s) with ⟨-, cause, hrefused⟩ | ⟨-, htaken⟩
  · rw [hrefused] at hsubmit
    cases hsubmit
  · obtain ⟨hticket, rfl⟩ := Prod.mk.inj (htaken.symm.trans hsubmit)
    rw [taking, List.length_append, List.length_singleton] at hfew
    obtain ⟨later, htracks, hgrows⟩ := exists_tracks_run h requests (by omega)
    have hlength : (Log.accepted later).length + 1 < UInt64.size := by
      rwa [htracks.submitted, List.length_map] at hfew
    refine htracks.taken_notMem hlength line ?_
    rw [Except.ok.inj hticket]
    exact (hgrows.map _).subset (hknown ticket hmem)

/-! ### The first refusal -/

/-- Is the ticket at a position of a list one that a queue does not offer, or that stands in the
list before? -/
def RefusedAt (queue : PendingQueue) (tickets : List Ticket) (k : Nat) : Prop :=
  ∃ ticket, tickets[k]? = some ticket ∧
    (ticket ∉ queue.cancellable ∨ ∃ j < k, tickets[j]? = some ticket)

/-- Does dropping some tickets lead from one scheduler to the other? -/
structure Drops (s : MemoryScheduler) (gone : List Ticket) (s' : MemoryScheduler) : Prop where
  /-- The tickets held before are those that are gone, each held once, and those held after. -/
  tickets : (s.held.map (·.ticket)).Perm (gone ++ s'.held.map (·.ticket))
  /-- What is left is in the same order, with the same lines and marks. -/
  held : s'.held = s.held.filter (·.ticket ∉ gone)
  submitted : s'.submitted = s.submitted
  nextId : s'.nextId = s.nextId
  available : s'.available = s.available
  /-- Whatever else is asked, no line that is taken later gets one of the tickets. -/
  notGivenAgain : ∀ requests line ticket s'', submit line (run requests s') = (.ok ticket, s'') →
    s''.submitted.length < UInt64.size → ticket ∉ gone

/-- **Dropping tickets that are offered** leads to the scheduler without them. -/
theorem drops_without (h : s.IsReached) (honce : gone.Nodup)
    (hcan : ∀ ticket ∈ gone, s.CanDrop ticket) : Drops s gone (s.without gone) := by
  obtain ⟨log, htracks, hfew⟩ := h.exists_tracks
  have hknown : ∀ ticket ∈ gone, ticket ∈ (Log.accepted log).map (·.1) := by
    intro ticket hmem
    obtain ⟨command, hfind, -⟩ := hcan ticket hmem
    exact htracks.mem_accepted hfind
  obtain ⟨log', htracks', haccepted⟩ := htracks.without hknown
  refine ⟨?tickets, rfl, rfl, rfl, rfl, ?notGivenAgain⟩
  case tickets =>
    exact perm_append_without (htracks.nodup_held hfew) honce fun ticket hmem =>
      (hcan ticket hmem).mem_held
  case notGivenAgain =>
    intro requests line ticket s'' hsubmit hfew'
    exact htracks'.ticket_notMem (haccepted ▸ hknown) hsubmit hfew'

/-- **In front of the first refusal** each ticket is offered, and stands once. -/
theorem nodup_take_of_not_refused {queue : PendingQueue} {k : Nat}
    (h : ∀ j < k, ¬ RefusedAt queue tickets j) :
    (tickets.take k).Nodup ∧ ∀ ticket ∈ tickets.take k, ticket ∈ queue.cancellable := by
  constructor
  · rw [List.nodup_iff_getElem?_ne_getElem?]
    intro i j hij hj heq
    have hjk : j < k := Nat.lt_of_lt_of_le hj (List.length_take_le _ _)
    rw [List.getElem?_take_of_lt (hij.trans hjk), List.getElem?_take_of_lt hjk] at heq
    have hj' : j < tickets.length := Nat.lt_of_lt_of_le hj (List.length_take_le' _ _)
    rw [List.getElem?_eq_getElem hj'] at heq
    exact h j hjk ⟨tickets[j], List.getElem?_eq_getElem hj', Or.inr ⟨i, hij, heq⟩⟩
  · intro ticket hmem
    obtain ⟨j, hj, hticket⟩ := List.mem_take_iff_getElem.1 hmem
    by_contra hnot
    refine h j (by omega) ⟨ticket, ?_, Or.inl hnot⟩
    rw [List.getElem?_eq_getElem (by omega), hticket]

/-- **By then a ticket that is refused cannot be dropped:** it never could, or it is gone. -/
theorem not_canDrop_without_take {queue : PendingQueue} {k : Nat}
    (hoffered : ∀ ticket, ticket ∈ queue.cancellable ↔ s.CanDrop ticket)
    (hrefused : ticket ∉ queue.cancellable ∨ ∃ j < k, tickets[j]? = some ticket) :
    ¬ (s.without (tickets.take k)).CanDrop ticket := by
  rw [canDrop_without_iff, ← hoffered]
  rintro ⟨hkept, hoffer⟩
  rcases hrefused with hnever | ⟨j, hj, hsame⟩
  · exact hnever hoffer
  · exact hkept (List.mem_of_getElem? ((List.getElem?_take_of_lt hj).trans hsame))

/-- **Tickets are dropped up to the first one that is refused.**  If none is refused, all of them
are dropped.  Otherwise those in front of the first refusal are; the ticket there is refused for
what is known of it by then; and nothing behind it is looked at. -/
theorem cancel_stops_at_first_refusal (h : s.IsReached) (hon : s.available = true) (now : Instant) :
    ∃ queue, pending now s = (.ok queue, s) ∧ ∀ tickets : List Ticket,
      ((∀ k, ¬ RefusedAt queue tickets k) →
        ∃ s', cancel tickets s = (.ok (), s') ∧ Drops s tickets s') ∧
      ∀ k, RefusedAt queue tickets k → (∀ j < k, ¬ RefusedAt queue tickets j) →
        ∃ ticket s', tickets[k]? = some ticket ∧
          cancelOne ticket s' = (.error (s'.refusal ticket), s') ∧
          cancel tickets s = (.error (s'.refusal ticket), s') ∧ Drops s (tickets.take k) s' := by
  obtain ⟨log, htracks, hfew⟩ := h.exists_tracks
  have hnodup := htracks.nodup_held hfew
  -- The queue offers just what can be dropped.
  have hoffered : ∀ ticket, ticket ∈ (PendingQueue.ofListing (s.listing now)).cancellable ↔
      s.CanDrop ticket := fun ticket => htracks.mem_cancellable_iff hfew now
  refine ⟨.ofListing (s.listing now), by rw [pending_eq, if_pos hon], fun tickets => ⟨?all, ?first⟩⟩
  case all =>
    intro hnone
    obtain ⟨honce, hcan⟩ := nodup_take_of_not_refused (k := tickets.length) fun j _ => hnone j
    rw [List.take_length] at honce hcan
    have hcan' := fun ticket hmem => (hoffered ticket).1 (hcan ticket hmem)
    exact ⟨_, cancel_eq_without hon hnodup honce hcan', drops_without h honce hcan'⟩
  case first =>
    rintro k ⟨ticket, hticket, hrefused⟩ hnone
    obtain ⟨honce, hcan⟩ := nodup_take_of_not_refused hnone
    have hcan' := fun ticket hmem => (hoffered ticket).1 (hcan ticket hmem)
    have hfront := cancel_eq_without hon hnodup honce hcan'
    have hon' : (s.without (tickets.take k)).available = true := hon
    have hnot := not_canDrop_without_take hoffered hrefused
    -- The list is its front, which is dropped, the refused ticket, and what is not looked at.
    have hsplit : tickets = tickets.take k ++ ticket :: tickets.drop (k + 1) := by
      obtain ⟨hk, rfl⟩ := List.getElem?_eq_some_iff.1 hticket
      rw [← List.drop_eq_getElem_cons hk, List.take_append_drop]
    have hstops := cancel_eq_refusal hfront hon' hnot (tickets.drop (k + 1))
    rw [← hsplit] at hstops
    exact ⟨ticket, _, hticket, cancelOne_eq_refusal hon' hnot, hstops, drops_without h honce hcan'⟩

/-- Four lines were taken, and the second command has started. -/
def fourTaken : MemoryScheduler :=
  run [.submit "first", .submit "second", .submit "third", .submit "fourth", .start ⟨"2"⟩] {}

/-- The list names a ticket again, and behind it one that has started and one that is unknown. -/
def repeating : List Ticket := [⟨"3"⟩, ⟨"1"⟩, ⟨"3"⟩, ⟨"2"⟩, ⟨"9"⟩]

/-- A list with a ticket twice: the second time it is unknown, and those before it are dropped. -/
theorem cancel_stops_at_first_refusal_repeating :
    fourTaken.IsReached ∧ fourTaken.available = true ∧
    ∃ queue, pending 0 fourTaken = (.ok queue, fourTaken) ∧ RefusedAt queue repeating 2 ∧
      (∀ j < 2, ¬ RefusedAt queue repeating j) ∧
      ∃ s', cancel repeating fourTaken = (.error (.unknownTicket "3"), s') ∧
        Drops fourTaken [⟨"3"⟩, ⟨"1"⟩] s' := by
  have hreached : fourTaken.IsReached := ⟨⟨_, rfl⟩, by decide⟩
  have hon : fourTaken.available = true := by decide
  obtain ⟨queue, hqueue, hcancel⟩ := cancel_stops_at_first_refusal hreached hon 0
  have hoffered : queue.cancellable = [⟨"1"⟩, ⟨"3"⟩, ⟨"4"⟩] := by
    rw [pending_eq, if_pos hon] at hqueue
    rw [← Except.ok.inj (Prod.mk.inj hqueue).1]
    decide +kernel
  have hsecond : RefusedAt queue repeating 2 := ⟨⟨"3"⟩, rfl, Or.inr ⟨0, by decide, rfl⟩⟩
  have hnone : ∀ j < 2, ¬ RefusedAt queue repeating j := by
    rintro j hj ⟨ticket, hticket, hnever | ⟨i, hi, hsame⟩⟩
    · refine hnever (hoffered ▸ ?_)
      obtain rfl | rfl : j = 0 ∨ j = 1 := by omega
      · exact Option.some.inj hticket ▸ by decide
      · exact Option.some.inj hticket ▸ by decide
    · obtain ⟨rfl, rfl⟩ : j = 1 ∧ i = 0 := by omega
      exact absurd (hticket.trans hsame.symm) (by decide)
  obtain ⟨ticket, s', hticket, -, hstops, hdrops⟩ := (hcancel repeating).2 2 hsecond hnone
  obtain rfl : ⟨"3"⟩ = ticket := Option.some.inj hticket
  have hunknown : ¬ ∃ command ∈ s'.held, command.ticket = ⟨"3"⟩ ∧ command.executing = true := by
    rw [hdrops.held]
    decide +kernel
  rw [refusal, if_neg hunknown] at hstops
  exact ⟨hreached, hon, queue, hqueue, hsecond, hnone, s', hstops, hdrops⟩

end MemoryScheduler
end JobSpool
