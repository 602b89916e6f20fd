/-
# A scheduler that only remembers

`InMemoryScheduler` with `start`, `finish` and `set_available`: `SPEC_FULL.md`, E9.

For dry runs and tests: commands are held and never run. Tickets are numbered from one,
and a number is never given twice. Starting and finishing a command is up to the
operator, and the scheduler can be switched off, after which it refuses every call and
changes nothing.

Its listing has the form of the real facility's, and is read back from that text.
-/

import JobSpool.Scheduler.Basic

namespace JobSpool

/-- A command that is held. -/
structure HeldCommand where
  ticket : Ticket
  line : String
  executing : Bool
  deriving DecidableEq, Repr

/-- A scheduler that only remembers. -/
structure MemoryScheduler where
  nextId : UInt64 := 1
  held : List HeldCommand := []
  /-- Every line that was taken, in order. -/
  submitted : List String := []
  available : Bool := true
  deriving DecidableEq, Repr

namespace MemoryScheduler

/-- What a scheduler says that is switched off. -/
def switchedOff : SchedulerError :=
  .unavailable "in-memory scheduler switched off"

/-- `submit`: takes a line, unless it is blank. -/
def submit (line : String) (s : MemoryScheduler) : Except SchedulerError Ticket × MemoryScheduler :=
  if !s.available then (.error switchedOff, s)
  else if Text.isBlankText line then (.error (.rejected "garbled time"), s)
  else
    let ticket : Ticket := ⟨Text.writeCount s.nextId⟩
    (.ok ticket,
      { s with
        nextId := s.nextId + 1
        held := s.held ++ [⟨ticket, line, false⟩]
        submitted := s.submitted ++ [line] })

/-- The command that is held under a ticket. -/
def find? (s : MemoryScheduler) (ticket : Ticket) : Option HeldCommand :=
  s.held.find? (·.ticket == ticket)

/-- `cancel`: drops one ticket, unless it is unknown or has started. -/
def cancelOne (ticket : Ticket) (s : MemoryScheduler) :
    Except SchedulerError Unit × MemoryScheduler :=
  if !s.available then (.error switchedOff, s)
  else
    match s.find? ticket with
    | none => (.error (.unknownTicket ticket.text), s)
    | some held =>
      if held.executing then
        (.error (.rejected ("Cannot cancel ticket " ++ ticket.text ++ ": already running")), s)
      else (.ok (), { s with held := s.held.eraseP (·.ticket == ticket) })

/-- `cancel_many`: drops tickets one after another, up to the first one that is refused. -/
def cancel : List Ticket → MemoryScheduler → Except SchedulerError Unit × MemoryScheduler
  | [], s => (.ok (), s)
  | ticket :: tickets, s =>
    match cancelOne ticket s with
    | (.error e, s) => (.error e, s)
    | (.ok (), s) => cancel tickets s

/-- The line of the listing for a command. -/
def listingLine (now : Instant) (h : HeldCommand) : String :=
  h.ticket.text ++ "\t" ++ now.listed ++ " " ++ (if h.executing then "=" else "a") ++ " profq\n"

/-- The listing. -/
def listing (now : Instant) (s : MemoryScheduler) : String :=
  String.join (s.held.map (listingLine now))

/-- `list_pending`: lists what is held. -/
def pending (now : Instant) (s : MemoryScheduler) :
    Except SchedulerError PendingQueue × MemoryScheduler :=
  if !s.available then (.error switchedOff, s)
  else (.ok (.ofListing (s.listing now)), s)

instance : Scheduler MemoryScheduler := ⟨fun _ => submit, fun _ => cancel, fun _ => pending⟩

/-- Marks the command under a ticket as started. -/
def markStarted (ticket : Ticket) : List HeldCommand → List HeldCommand
  | [] => []
  | h :: held =>
    if h.ticket == ticket then { h with executing := true } :: held
    else h :: markStarted ticket held

/-- `start`: starts the command under a ticket, and gives its line. -/
def start (ticket : Ticket) (s : MemoryScheduler) : Option String × MemoryScheduler :=
  ((s.find? ticket).map (·.line), { s with held := markStarted ticket s.held })

/-- `finish`: forgets the command under a ticket, and tells whether there was one. -/
def finish (ticket : Ticket) (s : MemoryScheduler) : Bool × MemoryScheduler :=
  (s.held.any (·.ticket == ticket), { s with held := s.held.filter (·.ticket != ticket) })

/-- `command_for`: the line that is held under a ticket. -/
def lineFor (ticket : Ticket) (s : MemoryScheduler) : Option String :=
  (s.find? ticket).map (·.line)

/-- `set_available`: switches the scheduler on or off. -/
def setAvailable (available : Bool) (s : MemoryScheduler) : MemoryScheduler :=
  { s with available }

end MemoryScheduler
end JobSpool
