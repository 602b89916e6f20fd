/-
# Every ticket is accounted for

`InMemoryScheduler`: `SPEC_FULL.md`, 4.2 and E9.

The scheduler is asked one thing after another (`Request`), and a log is kept of what is due
(`Log.of`).  The log is drawn up from the requests alone, without a look at the scheduler: a line is
due to be accepted if it is not blank and the scheduler is on, a command is due to start or to
finish if it is outstanding, and so on (`Log.due`).  It says which commands were accepted, and under
which tickets (`Log.accepted`), which of them are outstanding, being neither dropped nor finished
(`Log.outstanding`), and which of those have started.

`AnswersTo` says that the answers of a scheduler are those that a log asks for: each request is
granted if the log has it due, and refused otherwise; the queue, which is read from the printed
listing, has the outstanding commands in the order in which they were accepted, each with its mark;
a ticket can be dropped if the queue shows it as not started; and so on.  It holds at each point of
every run of fewer than 2⁶⁴ submissions (`tickets_accounted_for`), as that is how many tickets
there are.

The run is an induction over `Tracks`, which says what is held in terms of the log.
-/

import JobSpool.Proofs.ListingLines
import JobSpool.Proofs.Tickets
import Mathlib.Data.List.Induction
import Mathlib.Data.List.Nodup
import Mathlib.Tactic.Tauto

namespace JobSpool
namespace MemoryScheduler

/-! ### Requests and the log -/

/-- Something that the scheduler is asked to do. -/
inductive Request
  | submit (line : String)
  | start (ticket : Ticket)
  | finish (ticket : Ticket)
  | cancel (ticket : Ticket)
  | setAvailable (available : Bool)
  deriving DecidableEq, Repr

/-- Something that is granted to the one who asks. -/
inductive Deed
  | accepted (ticket : Ticket) (line : String)
  | started (ticket : Ticket)
  | finished (ticket : Ticket)
  | dropped (ticket : Ticket)
  | switched (available : Bool)
  deriving DecidableEq, Repr

namespace Request

/-- What the scheduler does when it is asked, unless it refuses, and the scheduler afterwards. -/
def perform : Request → MemoryScheduler → Option Deed × MemoryScheduler
  | submit line, s =>
    match s.submit line with
    | (.error _, s) => (none, s)
    | (.ok ticket, s) => (some (.accepted ticket line), s)
  | start ticket, s =>
    match s.start ticket with
    | (none, s) => (none, s)
    | (some _, s) => (some (.started ticket), s)
  | finish ticket, s =>
    match s.finish ticket with
    | (false, s) => (none, s)
    | (true, s) => (some (.finished ticket), s)
  | cancel ticket, s =>
    match s.cancelOne ticket with
    | (.error _, s) => (none, s)
    | (.ok (), s) => (some (.dropped ticket), s)
  | setAvailable available, s => (some (.switched available), s.setAvailable available)

/-- Is it a submission? -/
def isSubmission : Request → Bool
  | submit _ => true
  | _ => false

end Request

namespace Log

/-- The lines that were accepted, each under its ticket, in order. -/
def accepted (log : List Deed) : List (Ticket × String) :=
  log.filterMap fun deed =>
    match deed with
    | .accepted ticket line => some (ticket, line)
    | _ => none

/-- Was the command under a ticket dropped, or has it finished? -/
def isOver (log : List Deed) (ticket : Ticket) : Bool :=
  log.contains (.dropped ticket) || log.contains (.finished ticket)

/-- Has the command under a ticket started? -/
def hasStarted (log : List Deed) (ticket : Ticket) : Bool :=
  log.contains (.started ticket)

/-- The lines that were accepted and whose commands are not over. -/
def outstanding (log : List Deed) : List (Ticket × String) :=
  (accepted log).filter (!isOver log ·.1)

/-- Is the scheduler on? -/
def isOn (log : List Deed) : Bool :=
  log.foldl (fun on deed => match deed with
    | .switched available => available
    | _ => on) true

/-- Is the command under a ticket outstanding? -/
def isOutstanding (log : List Deed) (ticket : Ticket) : Bool :=
  (outstanding log).any (·.1 == ticket)

end Log

/-- The ticket of the submission that is accepted after so many others. -/
def ticketAfter (n : Nat) : Ticket :=
  ⟨Text.writeCount (.ofNat (n + 1))⟩

namespace Log

/-- What is due when something is asked, after what is in a log.  Nothing is due when the request is
to be refused. -/
def due (log : List Deed) : Request → Option Deed
  | .submit line =>
    if isOn log && !Text.isBlankText line then
      some (.accepted (ticketAfter (accepted log).length) line)
    else none
  | .start ticket => if isOutstanding log ticket then some (.started ticket) else none
  | .finish ticket => if isOutstanding log ticket then some (.finished ticket) else none
  | .cancel ticket =>
    if isOn log && isOutstanding log ticket && !hasStarted log ticket then some (.dropped ticket)
    else none
  | .setAvailable available => some (.switched available)

/-- The log of one request after another. -/
def of (requests : List Request) : List Deed :=
  requests.foldl (fun log request => log ++ (due log request).toList) []

end Log

/-- Does a scheduler give the answers that a log asks for? -/
structure AnswersTo (log : List Deed) (s : MemoryScheduler) : Prop where
  /-- It grants what is due, and refuses what is not. -/
  grants : ∀ request : Request, (request.perform s).1 = Log.due log request
  /-- No ticket was given twice. -/
  distinct : ((Log.accepted log).map (·.1)).Nodup
  /-- The lines that it took are those it accepted, in order. -/
  submitted : s.submitted = (Log.accepted log).map (·.2)
  /-- While it is on, its queue shows just the outstanding commands, in order. -/
  pending_on : Log.isOn log = true → ∀ now, ∃ queue, pending now s = (.ok queue, s) ∧
    queue.entries.map (fun entry => (entry.ticket, entry.executing))
      = (Log.outstanding log).map fun command => (command.1, Log.hasStarted log command.1)
  /-- While it is off, it does not tell. -/
  pending_off : Log.isOn log = false → ∀ now, pending now s = (.error switchedOff, s)
  /-- It has a line under a ticket while its command is outstanding, and it is the one accepted. -/
  lineFor_iff : ∀ ticket line,
    s.lineFor ticket = some line ↔ (ticket, line) ∈ Log.outstanding log
  /-- A command can be started while it is outstanding, and then its line is told. -/
  start_iff : ∀ ticket line,
    (start ticket s).1 = some line ↔ (ticket, line) ∈ Log.outstanding log
  /-- A command can be finished while it is outstanding. -/
  finish_iff : ∀ ticket,
    (finish ticket s).1 = true ↔ ∃ line, (ticket, line) ∈ Log.outstanding log
  /-- Then this ticket is no longer held, and nothing else changes. -/
  finish_only : ∀ ticket,
    (finish ticket s).2 = { s with held := s.held.filter (·.ticket != ticket) }
  /-- A ticket can be dropped exactly if the queue shows it as not started. -/
  cancel_iff : ∀ now ticket, (cancelOne ticket s).1 = .ok () ↔
    ∃ queue, (pending now s).1 = .ok queue ∧ ticket ∈ queue.cancellable
  /-- Then this ticket is no longer held, and nothing else changes. -/
  cancel_only : ∀ ticket, (cancelOne ticket s).1 = .ok () →
    (cancelOne ticket s).2 = { s with held := s.held.filter (·.ticket != ticket) }
  /-- It accepts every line that is not blank, while it is on. -/
  submit_refused_iff : ∀ line, (∃ cause, (submit line s).1 = .error cause) ↔
    Log.isOn log = false ∨ Text.isBlankText line = true
  /-- A request that it refuses changes nothing. -/
  refused : ∀ request : Request, (request.perform s).1 = none → (request.perform s).2 = s

/-! ### What is held, in terms of the log -/

/-- The command that is held for a line that was accepted. -/
def heldFor (log : List Deed) (command : Ticket × String) : HeldCommand :=
  ⟨command.1, command.2, Log.hasStarted log command.1⟩

/-- Is the scheduler in the state that its log brings about? -/
structure Tracks (log : List Deed) (s : MemoryScheduler) : Prop where
  tickets : (Log.accepted log).map (·.1) = (List.range (Log.accepted log).length).map ticketAfter
  nextId : s.nextId = .ofNat ((Log.accepted log).length + 1)
  submitted : s.submitted = (Log.accepted log).map (·.2)
  held : s.held = (Log.outstanding log).map (heldFor log)
  /-- Only commands that were accepted have started, and only those are over. -/
  known : ∀ ticket, Log.isOver log ticket = true ∨ Log.hasStarted log ticket = true →
    ticket ∈ (Log.accepted log).map (·.1)
  available : s.available = Log.isOn log

variable {log : List Deed} {s : MemoryScheduler} {ticket : Ticket}

/-- A command is over if it was dropped or has finished. -/
theorem Log.isOver_iff :
    Log.isOver log ticket = true ↔ .dropped ticket ∈ log ∨ .finished ticket ∈ log := by
  simp [Log.isOver]

/-- A command has started if the log says so. -/
theorem Log.hasStarted_iff : Log.hasStarted log ticket = true ↔ .started ticket ∈ log := by
  simp [Log.hasStarted]

/-- What two logs have accepted is accepted by both, one after the other. -/
theorem Log.accepted_append (log log' : List Deed) :
    Log.accepted (log ++ log') = Log.accepted log ++ Log.accepted log' :=
  List.filterMap_append

/-- A command is over in two logs if it is in one of them. -/
theorem Log.isOver_append (log log' : List Deed) (ticket : Ticket) :
    Log.isOver (log ++ log') ticket = (Log.isOver log ticket || Log.isOver log' ticket) := by
  rw [Bool.eq_iff_iff, Bool.or_eq_true, Log.isOver_iff, Log.isOver_iff, Log.isOver_iff]
  simp only [List.mem_append]
  tauto

/-- A command has started in two logs if it has in one of them. -/
theorem Log.hasStarted_append (log log' : List Deed) (ticket : Ticket) :
    Log.hasStarted (log ++ log') ticket
      = (Log.hasStarted log ticket || Log.hasStarted log' ticket) := by
  rw [Bool.eq_iff_iff, Bool.or_eq_true, Log.hasStarted_iff, Log.hasStarted_iff, Log.hasStarted_iff,
    List.mem_append]

/-- A ticket is outstanding if some command is, under it. -/
theorem Log.isOutstanding_iff :
    Log.isOutstanding log ticket = true ↔ ∃ line, (ticket, line) ∈ Log.outstanding log := by
  simp [Log.isOutstanding]

/-- A command is outstanding if it was accepted, and is not over. -/
theorem Log.mem_outstanding_iff {command : Ticket × String} : command ∈ Log.outstanding log ↔
    command ∈ Log.accepted log ∧ Log.isOver log command.1 = false := by
  rw [Log.outstanding, List.mem_filter, Bool.not_eq_true']

/-- Different submissions have different tickets, as far as the numbers go. -/
theorem ticketAfter_inj {n m : Nat} (hn : n + 1 < UInt64.size) (hm : m + 1 < UInt64.size)
    (h : ticketAfter n = ticketAfter m) : n = m := by
  have hwritten : Text.writeCount (.ofNat (n + 1)) = Text.writeCount (.ofNat (m + 1)) :=
    congrArg Ticket.text h
  have hread := Text.readCount?_writeCount (.ofNat (n + 1))
  rw [hwritten, Text.readCount?_writeCount] at hread
  have hnumber := congrArg UInt64.toNat (Option.some.inj hread)
  rw [UInt64.toNat_ofNat_of_lt' hn, UInt64.toNat_ofNat_of_lt' hm] at hnumber
  omega

/-- Where tickets are distinct, marking one is marking all that are equal to it. -/
theorem markStarted_eq_map {held : List HeldCommand} (h : (held.map (·.ticket)).Nodup) :
    markStarted ticket held
      = held.map fun command =>
          if command.ticket = ticket then { command with executing := true } else command := by
  induction held with
  | nil => rfl
  | cons first held ih =>
    rw [List.map_cons, List.nodup_cons] at h
    rw [markStarted, List.map_cons]
    by_cases hfirst : first.ticket = ticket
    · have hothers : ∀ command ∈ held, command.ticket ≠ ticket := fun command hmem heq =>
        h.1 (hfirst ▸ heq ▸ List.mem_map_of_mem hmem)
      rw [if_pos (beq_iff_eq.2 hfirst), if_pos hfirst]
      have hsame : held.map (fun command =>
          if command.ticket = ticket then { command with executing := true } else command) = held :=
        (List.map_congr_left fun command hmem => if_neg (hothers command hmem)).trans
          (List.map_id _)
      rw [hsame]
    · rw [if_neg (by simpa using hfirst), if_neg hfirst, ih h.2]

/-- Where tickets are distinct, dropping one is dropping all that are equal to it. -/
theorem eraseP_eq_filter {held : List HeldCommand} (h : (held.map (·.ticket)).Nodup) :
    held.eraseP (·.ticket == ticket) = held.filter (·.ticket != ticket) := by
  induction held with
  | nil => rfl
  | cons first held ih =>
    rw [List.map_cons, List.nodup_cons] at h
    by_cases hfirst : first.ticket = ticket
    · have hothers : ∀ command ∈ held, (command.ticket != ticket) = true := fun command hmem =>
        bne_iff_ne.2 fun heq => h.1 (hfirst ▸ heq ▸ List.mem_map_of_mem hmem)
      rw [List.eraseP_cons_of_pos (by simpa using hfirst),
        List.filter_cons_of_neg (by simp [hfirst]), List.filter_eq_self.2 hothers]
    · rw [List.eraseP_cons_of_neg (by simpa using hfirst),
        List.filter_cons_of_pos (by simpa using hfirst), ih h.2]

namespace Tracks

/-- **A scheduler that is new** has done nothing. -/
theorem new : Tracks [] {} where
  tickets := rfl
  nextId := rfl
  submitted := rfl
  held := rfl
  known := fun _ h => by simp [Log.isOver, Log.hasStarted] at h
  available := rfl

/-- **No ticket was given twice.** -/
theorem distinct (h : Tracks log s) (hfew : (Log.accepted log).length < UInt64.size) :
    ((Log.accepted log).map (·.1)).Nodup := by
  rw [h.tickets]
  refine List.Nodup.map_on ?_ List.nodup_range
  intro n hn m hm heq
  rw [List.mem_range] at hn hm
  exact ticketAfter_inj (by omega) (by omega) heq

/-- **Tickets are numbered** in the order in which they are given. -/
theorem ticket_taken (h : Tracks log s) (line : String) :
    (s.taken line).ticket = ticketAfter (Log.accepted log).length := by
  rw [taken, h.nextId, ticketAfter]

/-- **The next ticket is a new one.** -/
theorem taken_notMem (h : Tracks log s) (hfew : (Log.accepted log).length + 1 < UInt64.size)
    (line : String) : (s.taken line).ticket ∉ (Log.accepted log).map (·.1) := by
  rw [h.ticket_taken line, h.tickets]
  intro hmem
  obtain ⟨n, hn, heq⟩ := List.mem_map.1 hmem
  rw [List.mem_range] at hn
  have := ticketAfter_inj (by omega) hfew heq
  omega

/-- What is held is outstanding. -/
theorem mem_of_find? (h : Tracks log s) {command : HeldCommand}
    (hfind : s.find? ticket = some command) :
    command = heldFor log (ticket, command.line) ∧
      (ticket, command.line) ∈ Log.outstanding log := by
  have hfind' : s.held.find? (·.ticket == ticket) = some command := hfind
  have hticket : command.ticket = ticket := by simpa using List.find?_some hfind'
  have hmem := List.mem_of_find?_eq_some hfind'
  rw [h.held] at hmem
  obtain ⟨⟨ticket', line⟩, hout, rfl⟩ := List.mem_map.1 hmem
  obtain rfl : ticket' = ticket := hticket
  exact ⟨rfl, hout⟩

/-- What is held has been accepted. -/
theorem mem_accepted (h : Tracks log s) {command : HeldCommand}
    (hfind : s.find? ticket = some command) : ticket ∈ (Log.accepted log).map (·.1) :=
  List.mem_map_of_mem (Log.mem_outstanding_iff.1 (h.mem_of_find? hfind).2).1

/-- What is held has distinct tickets. -/
theorem nodup_held (h : Tracks log s) (hfew : (Log.accepted log).length < UInt64.size) :
    (s.held.map (·.ticket)).Nodup := by
  rw [h.held, List.map_map]
  exact (h.distinct hfew).sublist (List.filter_sublist.map _)

/-! ### Each deed -/

/-- What is held under a ticket is found under it. -/
theorem find?_eq_some_iff (h : Tracks log s) (hfew : (Log.accepted log).length < UInt64.size)
    {command : HeldCommand} :
    s.find? ticket = some command ↔ command ∈ s.held ∧ command.ticket = ticket := by
  constructor
  · intro hfind
    have hfind' : s.held.find? (·.ticket == ticket) = some command := hfind
    exact ⟨List.mem_of_find?_eq_some hfind', by simpa using List.find?_some hfind'⟩
  · rintro ⟨hmem, rfl⟩
    obtain ⟨found, hfound⟩ : ∃ found, s.held.find? (·.ticket == command.ticket) = some found :=
      Option.isSome_iff_exists.1 (List.find?_isSome.2 ⟨command, hmem, beq_self_eq_true _⟩)
    have hticket : found.ticket = command.ticket := by simpa using List.find?_some hfound
    have hsame : found = command :=
      List.inj_on_of_nodup_map (h.nodup_held hfew) (List.mem_of_find?_eq_some hfound) hmem hticket
    exact hsame ▸ hfound

/-- A ticket is one field of the listing. -/
theorem isField_ticket (h : Tracks log s) {command : HeldCommand} (hmem : command ∈ s.held) :
    Text.IsField command.ticket.text.toList := by
  rw [h.held] at hmem
  obtain ⟨accepted, hout, rfl⟩ := List.mem_map.1 hmem
  have hticket : accepted.1 ∈ (Log.accepted log).map (·.1) :=
    List.mem_map_of_mem (Log.mem_outstanding_iff.1 hout).1
  rw [h.tickets] at hticket
  obtain ⟨n, -, hnumber⟩ := List.mem_map.1 hticket
  rw [heldFor, ← hnumber]
  exact Text.isField_writeCount _

/-- **The queue shows the outstanding commands,** in order. -/
theorem entries_eq (h : Tracks log s) (now : Instant) :
    (PendingQueue.ofListing (s.listing now)).entries
      = (Log.outstanding log).map fun command => entryOf now (heldFor log command) := by
  rw [entries_listing (fun _ => h.isField_ticket) now, h.held, List.map_map]
  rfl

/-- **A line that is accepted** is outstanding under a new ticket. -/
theorem accept (h : Tracks log s) (hfew : (Log.accepted log).length + 1 < UInt64.size)
    (line : String) :
    Tracks (log ++ [.accepted (s.taken line).ticket line]) (s.taking line) := by
  have hnew := h.taken_notMem hfew line
  have hticket := h.ticket_taken line
  have haccepted : Log.accepted (log ++ [.accepted (s.taken line).ticket line])
      = Log.accepted log ++ [((s.taken line).ticket, line)] := Log.accepted_append _ _
  have hover : ∀ ticket, Log.isOver (log ++ [.accepted (s.taken line).ticket line]) ticket
      = Log.isOver log ticket := fun ticket => by
    rw [Log.isOver_append]
    exact Bool.or_false _
  have hstarted : ∀ ticket, Log.hasStarted (log ++ [.accepted (s.taken line).ticket line]) ticket
      = Log.hasStarted log ticket := fun ticket => by
    rw [Log.hasStarted_append]
    exact Bool.or_false _
  have hnone : Log.isOver log (s.taken line).ticket = false ∧
      Log.hasStarted log (s.taken line).ticket = false := by
    constructor <;> rw [← Bool.not_eq_true] <;> intro hknown
    · exact hnew (h.known _ (Or.inl hknown))
    · exact hnew (h.known _ (Or.inr hknown))
  -- The six fields of `Tracks`, in their order.
  refine ⟨?_, ?_, ?_, ?_, ?_, ?_⟩
  · rw [haccepted, List.map_append, List.length_append, List.length_singleton, List.range_succ,
      List.map_append, h.tickets, hticket]
    rfl
  · have hnext : (s.taking line).nextId = s.nextId + 1 := rfl
    rw [haccepted, List.length_append, List.length_singleton, hnext, h.nextId]
    exact (UInt64.ofNat_add _ 1).symm
  · rw [haccepted, List.map_append, ← h.submitted]
    rfl
  · have hout : Log.outstanding (log ++ [.accepted (s.taken line).ticket line])
        = Log.outstanding log ++ [((s.taken line).ticket, line)] := by
      rw [Log.outstanding, haccepted, List.filter_append, Log.outstanding]
      simp only [hover]
      rw [List.filter_cons_of_pos (by simp [hnone.1]), List.filter_nil]
    have hheld : heldFor (log ++ [.accepted (s.taken line).ticket line]) = heldFor log :=
      funext fun command => by rw [heldFor, heldFor, hstarted]
    rw [hout, List.map_append, hheld, ← h.held, taking, List.map_singleton, heldFor, hnone.2]
    rfl
  · intro ticket hknown
    rw [hover, hstarted] at hknown
    rw [haccepted, List.map_append]
    exact List.mem_append_left _ (h.known ticket hknown)
  · rw [Log.isOn, List.foldl_append]
    exact h.available

/-- For a deed that accepts nothing, only what is held has to be told anew. -/
theorem of_accepted_eq {log' : List Deed} {held : List HeldCommand} {available : Bool}
    (h : Tracks log s) (haccepted : Log.accepted log' = Log.accepted log)
    (hheld : held = (Log.outstanding log').map (heldFor log'))
    (hknown : ∀ ticket, Log.isOver log' ticket = true ∨ Log.hasStarted log' ticket = true →
      ticket ∈ (Log.accepted log).map (·.1))
    (havailable : available = Log.isOn log') : Tracks log' { s with held, available } where
  tickets := haccepted ▸ h.tickets
  nextId := haccepted ▸ h.nextId
  submitted := haccepted ▸ h.submitted
  held := hheld
  known := haccepted ▸ hknown
  available := havailable

/-- **A command that is started** is marked. -/
theorem start (h : Tracks log s) (hfew : (Log.accepted log).length < UInt64.size)
    (hmem : ticket ∈ (Log.accepted log).map (·.1)) :
    Tracks (log ++ [.started ticket]) { s with held := markStarted ticket s.held } := by
  have haccepted : Log.accepted (log ++ [.started ticket]) = Log.accepted log :=
    (Log.accepted_append _ _).trans (List.append_nil _)
  have hover : ∀ other, Log.isOver (log ++ [.started ticket]) other = Log.isOver log other :=
    fun other => (Log.isOver_append _ _ _).trans (Bool.or_false _)
  have hstarted : ∀ other, Log.hasStarted (log ++ [.started ticket]) other
      = (Log.hasStarted log other || decide (other = ticket)) := fun other => by
    rw [Log.hasStarted_append]
    simp [Log.hasStarted]
  refine h.of_accepted_eq haccepted ?_ ?_ ?_
  · have hout : Log.outstanding (log ++ [.started ticket]) = Log.outstanding log := by
      simp only [Log.outstanding, haccepted, hover]
    rw [hout, markStarted_eq_map (h.nodup_held hfew), h.held, List.map_map]
    refine List.map_congr_left fun command _ => ?_
    simp only [Function.comp_apply, heldFor, hstarted]
    by_cases heq : command.1 = ticket <;> simp [heq]
  · intro other hknown
    rw [hover, hstarted, Bool.or_eq_true, decide_eq_true_eq] at hknown
    rcases hknown with hover | hstarted | rfl
    · exact h.known other (Or.inl hover)
    · exact h.known other (Or.inr hstarted)
    · exact hmem
  · rw [Log.isOn, List.foldl_append]
    exact h.available

/-- **A command that was dropped or has finished** is no longer held. -/
theorem ended (h : Tracks log s) {deed : Deed}
    (hdeed : deed = .dropped ticket ∨ deed = .finished ticket)
    (hmem : ticket ∈ (Log.accepted log).map (·.1)) :
    Tracks (log ++ [deed]) { s with held := s.held.filter (·.ticket != ticket) } := by
  have haccepted : Log.accepted (log ++ [deed]) = Log.accepted log := by
    rw [Log.accepted_append]
    rcases hdeed with rfl | rfl <;> exact List.append_nil _
  have hover : ∀ other, Log.isOver (log ++ [deed]) other
      = (Log.isOver log other || decide (other = ticket)) := fun other => by
    rw [Log.isOver_append]
    rcases hdeed with rfl | rfl <;> simp [Log.isOver]
  have hstarted : ∀ other, Log.hasStarted (log ++ [deed]) other = Log.hasStarted log other :=
    fun other => by
      rw [Log.hasStarted_append]
      rcases hdeed with rfl | rfl <;> exact Bool.or_false _
  refine h.of_accepted_eq haccepted ?_ ?_ ?_
  -- What is outstanding loses this ticket, and so does what is held.
  · have hheld : heldFor (log ++ [deed]) = heldFor log :=
      funext fun command => by rw [heldFor, heldFor, hstarted]
    rw [hheld, h.held, List.filter_map, Log.outstanding, Log.outstanding, haccepted,
      List.filter_filter]
    congr 1
    refine List.filter_congr fun command _ => ?_
    rw [hover, Bool.eq_iff_iff]
    simp only [Function.comp_apply, heldFor, Bool.and_eq_true, bne_iff_ne, Bool.not_eq_true',
      Bool.or_eq_false_iff, decide_eq_false_iff_not]
    exact And.comm
  · intro other hknown
    rw [hover, hstarted, Bool.or_eq_true, decide_eq_true_eq] at hknown
    rcases hknown with (hover | rfl) | hstarted
    · exact h.known other (Or.inl hover)
    · exact hmem
    · exact h.known other (Or.inr hstarted)
  · rw [Log.isOn, List.foldl_append]
    rcases hdeed with rfl | rfl <;> exact h.available

/-- **Switching the scheduler** changes nothing else. -/
theorem switch (h : Tracks log s) (available : Bool) :
    Tracks (log ++ [.switched available]) (s.setAvailable available) := by
  have haccepted : Log.accepted (log ++ [.switched available]) = Log.accepted log :=
    (Log.accepted_append _ _).trans (List.append_nil _)
  have hover : ∀ other, Log.isOver (log ++ [.switched available]) other = Log.isOver log other :=
    fun other => (Log.isOver_append _ _ _).trans (Bool.or_false _)
  have hstarted : ∀ other,
      Log.hasStarted (log ++ [.switched available]) other = Log.hasStarted log other :=
    fun other => (Log.hasStarted_append _ _ _).trans (Bool.or_false _)
  refine h.of_accepted_eq haccepted ?_ ?_ ?_
  · have hout : Log.outstanding (log ++ [.switched available]) = Log.outstanding log := by
      simp only [Log.outstanding, haccepted, hover]
    have hheld : heldFor (log ++ [.switched available]) = heldFor log :=
      funext fun command => by rw [heldFor, heldFor, hstarted]
    rw [hout, hheld]
    exact h.held
  · intro other hknown
    rw [hover, hstarted] at hknown
    exact h.known other hknown
  · rw [Log.isOn, List.foldl_append]
    rfl

/-! ### A run -/

/-- **Each request keeps the scheduler in step with its log.** -/
theorem perform (h : Tracks log s) (request : Request)
    (hfew : (Log.accepted (log ++ (request.perform s).1.toList)).length < UInt64.size) :
    Tracks (log ++ (request.perform s).1.toList) (request.perform s).2 := by
  -- A request that is refused adds nothing to the log, and leaves the scheduler as it was.
  have hsame : Tracks (log ++ (none : Option Deed).toList) s := by
    rw [Option.toList_none, List.append_nil]
    exact h
  have hfewer : (Log.accepted log).length < UInt64.size := by
    rw [Log.accepted_append, List.length_append] at hfew
    omega
  cases request with
  | submit line =>
    rw [Request.perform] at hfew ⊢
    rcases submit_cases line s with ⟨-, cause, hrefused⟩ | ⟨-, htaken⟩
    · rw [hrefused]
      exact hsame
    · rw [htaken] at hfew ⊢
      rw [Log.accepted_append, List.length_append] at hfew
      exact h.accept hfew line
  | start ticket =>
    rw [Request.perform]
    rcases start_cases ticket s with ⟨-, hrefused⟩ | ⟨command, hfind, hstarted⟩
    · rw [hrefused]
      exact hsame
    · rw [hstarted]
      exact h.start hfewer (h.mem_accepted hfind)
  | finish ticket =>
    rw [Request.perform]
    rcases finish_cases ticket s with ⟨-, hrefused⟩ | ⟨command, hfind, hfinished⟩
    · rw [hrefused]
      exact hsame
    · rw [hfinished]
      exact h.ended (Or.inr rfl) (h.mem_accepted hfind)
  | cancel ticket =>
    rw [Request.perform]
    rcases cancelOne_cases ticket s with ⟨-, cause, hrefused⟩ | ⟨⟨-, command, hfind, -⟩, hdropped⟩
    · rw [hrefused]
      exact hsame
    · rw [hdropped, eraseP_eq_filter (h.nodup_held hfewer)]
      exact h.ended (Or.inl rfl) (h.mem_accepted hfind)
  | setAvailable available => exact h.switch available

/-- **A command is found while it is outstanding,** with the mark that it has. -/
theorem find?_eq_some_heldFor_iff (h : Tracks log s)
    (hfew : (Log.accepted log).length < UInt64.size) {line : String} :
    s.find? ticket = some (heldFor log (ticket, line)) ↔ (ticket, line) ∈ Log.outstanding log := by
  constructor
  · exact fun hfind => (h.mem_of_find? hfind).2
  · intro hout
    refine (h.find?_eq_some_iff hfew).2 ⟨?_, rfl⟩
    rw [h.held]
    exact List.mem_map_of_mem hout

/-- Nothing is found under any other ticket. -/
theorem find?_eq_none_iff (h : Tracks log s) (hfew : (Log.accepted log).length < UInt64.size) :
    s.find? ticket = none ↔ Log.isOutstanding log ticket = false := by
  rw [← Bool.not_eq_true, Log.isOutstanding_iff]
  constructor
  · rintro hnone ⟨line, hout⟩
    rw [(h.find?_eq_some_heldFor_iff hfew).2 hout] at hnone
    cases hnone
  · intro hnot
    rw [Option.eq_none_iff_forall_ne_some]
    exact fun command hfind => hnot ⟨command.line, (h.mem_of_find? hfind).2⟩

/-- **Just what is due is granted.** -/
theorem fst_perform (h : Tracks log s) (hfew : (Log.accepted log).length < UInt64.size)
    (request : Request) : (request.perform s).1 = Log.due log request := by
  cases request with
  | submit line =>
    rw [Request.perform, Log.due, ← h.available]
    rcases submit_cases line s with ⟨hnot, cause, hrefused⟩ | ⟨⟨hon, hshows⟩, htaken⟩
    · rw [hrefused, if_neg]
      rcases hnot with hoff | hblank
      · simp [hoff]
      · simp [hblank]
    · rw [htaken, hon, hshows, h.ticket_taken line]
      rfl
  | start ticket =>
    rw [Request.perform, Log.due]
    rcases start_cases ticket s with ⟨hnone, hrefused⟩ | ⟨command, hfind, hstarted⟩
    · rw [hrefused, (h.find?_eq_none_iff hfew).1 hnone]
      rfl
    · rw [hstarted, Log.isOutstanding_iff.2 ⟨_, (h.mem_of_find? hfind).2⟩]
      rfl
  | finish ticket =>
    rw [Request.perform, Log.due]
    rcases finish_cases ticket s with ⟨hnone, hrefused⟩ | ⟨command, hfind, hfinished⟩
    · rw [hrefused, (h.find?_eq_none_iff hfew).1 hnone]
      rfl
    · rw [hfinished, Log.isOutstanding_iff.2 ⟨_, (h.mem_of_find? hfind).2⟩]
      rfl
  | cancel ticket =>
    rw [Request.perform, Log.due, ← h.available]
    rcases cancelOne_cases ticket s with
      ⟨hnot, cause, hrefused⟩ | ⟨⟨hon, command, hfind, hexec⟩, hdropped⟩
    -- Had it been due, the command would be held and not started, so it could be dropped.
    · rw [hrefused, if_neg]
      simp only [Bool.and_eq_true, Bool.not_eq_true']
      rintro ⟨⟨hon, hout⟩, hstarted⟩
      obtain ⟨line, hmem⟩ := Log.isOutstanding_iff.1 hout
      exact hnot ⟨hon, _, (h.find?_eq_some_heldFor_iff hfew).2 hmem, hstarted⟩
    · obtain ⟨hcommand, hout⟩ := h.mem_of_find? hfind
      have hstarted : Log.hasStarted log ticket = false := by
        rw [hcommand] at hexec
        exact hexec
      rw [hdropped, hon, Log.isOutstanding_iff.2 ⟨_, hout⟩, hstarted]
      rfl
  | setAvailable available => rfl

/-- What can be dropped is what the queue shows as not started. -/
theorem mem_cancellable_iff (h : Tracks log s) (hfew : (Log.accepted log).length < UInt64.size)
    (now : Instant) : ticket ∈ (PendingQueue.ofListing (s.listing now)).cancellable ↔
      ∃ command, s.find? ticket = some command ∧ command.executing = false := by
  rw [PendingQueue.cancellable, entries_listing (fun _ => h.isField_ticket) now]
  simp only [List.mem_map, List.mem_filter, Bool.not_eq_true', h.find?_eq_some_iff hfew]
  constructor
  · rintro ⟨-, ⟨⟨command, hmem, rfl⟩, hexec⟩, hticket⟩
    exact ⟨command, ⟨hmem, hticket⟩, hexec⟩
  · rintro ⟨command, ⟨hmem, hticket⟩, hexec⟩
    exact ⟨_, ⟨⟨command, hmem, rfl⟩, hexec⟩, hticket⟩

/-- **A line is told while its command is outstanding.** -/
theorem lineFor_iff (h : Tracks log s) (hfew : (Log.accepted log).length < UInt64.size)
    (line : String) : s.lineFor ticket = some line ↔ (ticket, line) ∈ Log.outstanding log := by
  rw [lineFor, Option.map_eq_some_iff, ← h.find?_eq_some_heldFor_iff hfew]
  constructor
  · rintro ⟨command, hfind, rfl⟩
    exact hfind.trans (congrArg some (h.mem_of_find? hfind).1)
  · exact fun hfind => ⟨_, hfind, rfl⟩

/-- A command that is finished is one that was outstanding. -/
theorem finish_iff (h : Tracks log s) (hfew : (Log.accepted log).length < UInt64.size) :
    (finish ticket s).1 = true ↔ ∃ line, (ticket, line) ∈ Log.outstanding log := by
  rw [← Log.isOutstanding_iff]
  rcases finish_cases ticket s with ⟨hnone, hrefused⟩ | ⟨command, hfind, hfinished⟩
  · rw [hrefused, (h.find?_eq_none_iff hfew).1 hnone]
  · rw [hfinished]
    exact iff_of_true rfl (Log.isOutstanding_iff.2 ⟨_, (h.mem_of_find? hfind).2⟩)

end Tracks

/-- **A request that is refused changes nothing.** -/
theorem snd_perform_of_refused {request : Request} (h : (request.perform s).1 = none) :
    (request.perform s).2 = s := by
  cases request with
  | submit line =>
    rw [Request.perform] at h ⊢
    rcases submit_cases line s with ⟨-, cause, hrefused⟩ | ⟨-, htaken⟩
    · rw [hrefused]
    · rw [htaken] at h
      cases h
  | start ticket =>
    rw [Request.perform] at h ⊢
    rcases start_cases ticket s with ⟨-, hrefused⟩ | ⟨command, -, hstarted⟩
    · rw [hrefused]
    · rw [hstarted] at h
      cases h
  | finish ticket =>
    rw [Request.perform] at h ⊢
    rcases finish_cases ticket s with ⟨-, hrefused⟩ | ⟨command, -, hfinished⟩
    · rw [hrefused]
    · rw [hfinished] at h
      cases h
  | cancel ticket =>
    rw [Request.perform] at h ⊢
    rcases cancelOne_cases ticket s with ⟨-, cause, hrefused⟩ | ⟨-, hdropped⟩
    · rw [hrefused]
    · rw [hdropped] at h
      cases h
  | setAvailable available => cases h

/-- A call that lists what is held gets the queue, or is told that the scheduler is off. -/
theorem pending_eq (now : Instant) (s : MemoryScheduler) : pending now s
    = (if s.available = true then .ok (.ofListing (s.listing now)) else .error switchedOff, s) := by
  rw [pending]
  cases s.available <;> rfl

/-- **What a scheduler answers is what its log asks for.** -/
theorem Tracks.answersTo (h : Tracks log s) (hfew : (Log.accepted log).length < UInt64.size) :
    AnswersTo log s where
  distinct := h.distinct hfew
  submitted := h.submitted
  pending_on hon now := by
    have hshown := h.entries_eq now
    refine ⟨.ofListing (s.listing now), ?_, ?_⟩
    · rw [pending_eq, if_pos (h.available.trans hon)]
    · rw [hshown, List.map_map]
      rfl
  pending_off hoff now := by
    rw [pending_eq, h.available, hoff]
    rfl
  grants := h.fst_perform hfew
  lineFor_iff ticket line := h.lineFor_iff hfew line
  start_iff ticket line := h.lineFor_iff hfew line
  finish_iff ticket := h.finish_iff hfew
  finish_only ticket := rfl
  cancel_iff now ticket := by
    have hqueue : (∃ queue, (pending now s).1 = .ok queue ∧ ticket ∈ queue.cancellable) ↔
        s.available = true ∧ ∃ command, s.find? ticket = some command ∧
          command.executing = false := by
      rw [pending_eq, ← h.mem_cancellable_iff hfew now]
      cases s.available <;> simp
    rw [hqueue]
    rcases cancelOne_cases ticket s with ⟨hnot, cause, hrefused⟩ | ⟨hcan, hdropped⟩
    · rw [hrefused]
      exact iff_of_false (fun hok => by cases hok) hnot
    · rw [hdropped]
      exact iff_of_true rfl hcan
  cancel_only ticket hok := by
    rcases cancelOne_cases ticket s with ⟨-, cause, hrefused⟩ | ⟨-, hdropped⟩
    · rw [hrefused] at hok
      cases hok
    · rw [hdropped, eraseP_eq_filter (h.nodup_held hfew)]
  submit_refused_iff line := by
    rw [← h.available]
    rcases submit_cases line s with ⟨hnot, cause, hrefused⟩ | ⟨⟨hon, hshows⟩, htaken⟩
    · rw [hrefused]
      exact iff_of_true ⟨cause, rfl⟩ hnot
    · rw [htaken, hon, hshows]
      refine iff_of_false ?_ (by simp)
      rintro ⟨cause, herror⟩
      cases herror
  refused _ := snd_perform_of_refused

/-! ### A run -/

/-- A scheduler is asked one thing after another. -/
def run (requests : List Request) (s : MemoryScheduler) : MemoryScheduler :=
  requests.foldl (fun s request => (request.perform s).2) s

/-- One request more is answered where the others have led. -/
theorem run_concat (requests : List Request) (request : Request) (s : MemoryScheduler) :
    run (requests ++ [request]) s = (request.perform (run requests s)).2 :=
  List.foldl_concat ..

/-- One request more adds to the log what is due by then. -/
theorem Log.of_concat (requests : List Request) (request : Request) :
    Log.of (requests ++ [request])
      = Log.of requests ++ (Log.due (Log.of requests) request).toList :=
  List.foldl_concat ..

/-- Only a submission can be accepted. -/
theorem Log.length_accepted_due_le (log : List Deed) (request : Request) :
    (Log.accepted (Log.due log request).toList).length
      ≤ if request.isSubmission then 1 else 0 := by
  cases request with
  | setAvailable available => exact Nat.zero_le _
  | _ =>
    rw [Log.due]
    split
    · exact Nat.le_refl _
    · exact Nat.zero_le _

/-- **A scheduler stays in step with the log** over a run. -/
theorem tracks_run (requests : List Request)
    (hfew : requests.countP Request.isSubmission < UInt64.size) :
    Tracks (Log.of requests) (run requests {}) ∧
      (Log.accepted (Log.of requests)).length ≤ requests.countP Request.isSubmission := by
  induction requests using List.reverseRecOn with
  | nil => exact ⟨Tracks.new, Nat.le_refl _⟩
  | append_singleton requests request ih =>
    rw [List.countP_append, List.countP_singleton] at hfew ⊢
    obtain ⟨htracks, hcount⟩ := ih (by omega)
    have hgranted := htracks.fst_perform (by omega) request
    have hmore := Log.length_accepted_due_le (Log.of requests) request
    have hcount' : (Log.accepted (Log.of (requests ++ [request]))).length
        ≤ requests.countP Request.isSubmission + if request.isSubmission then 1 else 0 := by
      rw [Log.of_concat, Log.accepted_append, List.length_append]
      omega
    refine ⟨?_, hcount'⟩
    rw [Log.of_concat, ← hgranted] at hcount' ⊢
    rw [run_concat]
    exact htracks.perform request (by omega)

/-- **Every ticket is accounted for.**  At each point of a run with fewer submissions than there are
numbers for tickets, a scheduler that was new gives just the answers that the log of the requests
asks for. -/
theorem tickets_accounted_for (requests : List Request)
    (hfew : requests.countP Request.isSubmission < UInt64.size) :
    AnswersTo (Log.of requests) (run requests {}) := by
  obtain ⟨htracks, hcount⟩ := tracks_run requests hfew
  exact htracks.answersTo (by omega)

/-- Three lines are taken; the first command runs and finishes, the second is dropped, the third
starts while the scheduler is off.  Refused are a blank line, the ticket of a command that runs, a
line while the scheduler is off, and a ticket that has finished or is unknown. -/
def errands : List Request :=
  [.submit "first", .submit " ", .submit "second", .start ⟨"1"⟩, .cancel ⟨"1"⟩, .cancel ⟨"2"⟩,
    .submit "third", .finish ⟨"1"⟩, .setAvailable false, .submit "fourth", .start ⟨"3"⟩,
    .setAvailable true, .finish ⟨"1"⟩, .finish ⟨"9"⟩, .submit "fifth"]

/-- Five texts, one of them blank and one while the scheduler is off, and what becomes of the
others. -/
theorem tickets_accounted_for_errands : errands.countP Request.isSubmission < UInt64.size ∧
    AnswersTo (Log.of errands) (run errands {}) ∧
    Log.of errands = [.accepted ⟨"1"⟩ "first", .accepted ⟨"2"⟩ "second", .started ⟨"1"⟩,
      .dropped ⟨"2"⟩, .accepted ⟨"3"⟩ "third", .finished ⟨"1"⟩, .switched false, .started ⟨"3"⟩,
      .switched true, .accepted ⟨"4"⟩ "fifth"] ∧
    (run errands {}).held = [⟨⟨"3"⟩, "third", true⟩, ⟨⟨"4"⟩, "fifth", false⟩] ∧
    (finish ⟨"3"⟩ (run errands {})).1 = true ∧ (finish ⟨"1"⟩ (run errands {})).1 = false := by
  have hanswers := tickets_accounted_for errands (by decide)
  have hlog : Log.outstanding (Log.of errands) = [(⟨"3"⟩, "third"), (⟨"4"⟩, "fifth")] := by
    decide +kernel
  have hgone : ¬ ∃ line, (⟨"1"⟩, line) ∈ Log.outstanding (Log.of errands) := by simp [hlog]
  refine ⟨by decide, hanswers, by decide +kernel, by decide +kernel, ?_, ?_⟩
  · exact (hanswers.finish_iff ⟨"3"⟩).2 ⟨"third", by simp [hlog]⟩
  · exact Bool.eq_false_iff.2 fun htrue => hgone ((hanswers.finish_iff ⟨"1"⟩).1 htrue)

end MemoryScheduler
end JobSpool
