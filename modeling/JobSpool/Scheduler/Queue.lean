/-
# Tickets and the pending queue

`parse_at_ticket`, `parse_atq_listing` and `PendingQueue`: `SPEC_FULL.md`, 4.2, 6 and E9.

The execution facility acknowledges a command with a line such as
`job 17 at Sat Oct 17 10:00:00 2026`, often after a warning, and `Ticket.ofText?` takes the
ticket from the first line that reads so: `job`, blanks, the ticket, blanks, and `at`
as a whole word. The blanks may be line feeds.

Its listing holds one line for each ticket; `PendingQueue.ofListing` keeps every line that is
not blank. The ticket is the first field, and a seventh field `=` says that the command
has started.
-/

import JobSpool.Json.Value
import JobSpool.Text.Blank
import JobSpool.Text.WordCharacter

namespace JobSpool

/-- The name that the facility gave to a command it holds. -/
structure Ticket where
  text : String
  deriving DecidableEq, Repr

namespace Ticket

/-- What is left of the characters after a fixed text in front. -/
def after? : List Char → List Char → Option (List Char)
  | [], cs => some cs
  | _ :: _, [] => none
  | w :: ws, c :: cs => if w = c then after? ws cs else none

/-- What is left after the blanks in front, of which there has to be one. -/
def afterBlanks? : List Char → Option (List Char)
  | [] => none
  | c :: cs => if Text.isBlank c then some (cs.dropWhile Text.isBlank) else none

/-- Does a word end here? -/
def atWordEnd (cs : List Char) : Bool :=
  !cs.head?.any Text.isWordCharacter

/-- The ticket of an acknowledgement that starts here. -/
def acknowledged? (cs : List Char) : Option Ticket := do
  let rest ← after? "job".toList cs
  let rest ← afterBlanks? rest
  let ticket := rest.takeWhile (!Text.isBlank ·)
  if ticket.isEmpty then none
  let rest ← afterBlanks? (rest.dropWhile (!Text.isBlank ·))
  let rest ← after? "at".toList rest
  if atWordEnd rest then some ⟨String.ofList ticket⟩ else none

/-- The ticket of the first acknowledgement that starts at the start of a line. -/
def search? (lineStart : Bool) : List Char → Option Ticket
  | [] => none
  | c :: cs =>
    match if lineStart then acknowledged? (c :: cs) else none with
    | some ticket => some ticket
    | none => search? (c = '\n') cs

/-- `parse_at_ticket`: the ticket that a text acknowledges. -/
def ofText? (text : String) : Option Ticket :=
  search? true text.toList

end Ticket

/-- One line of the facility's listing. -/
structure PendingEntry where
  ticket : Ticket
  /-- The line as the facility printed it. -/
  raw : String
  /-- Has the command started? -/
  executing : Bool
  deriving DecidableEq, Repr

namespace PendingEntry

/-- Where a line of the listing has its queue letter. -/
def queueField : Nat := 6

/-- The entry that a line of the listing stands for. -/
def ofLine? (line : List Char) : Option PendingEntry :=
  match Text.fields line with
  | [] => none
  | ticket :: more =>
    some {
      ticket := ⟨String.ofList ticket⟩
      raw := String.ofList line
      executing := (ticket :: more)[queueField]? == some ['='] }

/-- An entry as a JSON object. -/
def toJson (e : PendingEntry) : Json.Value :=
  .object [("ticket", .text e.ticket.text), ("raw", .text e.raw), ("executing", .bool e.executing)]

end PendingEntry

/-- What the facility holds. -/
structure PendingQueue where
  /-- The listing as the facility printed it. -/
  rawListing : String
  entries : List PendingEntry
  deriving DecidableEq, Repr

namespace PendingQueue

/-- `parse_atq_listing`: the queue that a listing stands for. -/
def ofListing (listing : String) : PendingQueue where
  rawListing := listing
  entries := (Text.lines listing.toList).filterMap PendingEntry.ofLine?

/-- The tickets that have not started. -/
def cancellable (q : PendingQueue) : List Ticket :=
  (q.entries.filter (!·.executing)).map (·.ticket)

/-- Is nothing held? -/
def isEmpty (q : PendingQueue) : Bool :=
  q.entries.isEmpty

/-- Is the ticket held? -/
def contains (q : PendingQueue) (ticket : Ticket) : Bool :=
  q.entries.any (·.ticket == ticket)

/-- A queue as a JSON object. -/
def toJson (q : PendingQueue) : Json.Value :=
  .object [("rawListing", .text q.rawListing), ("entries", .list (q.entries.map (·.toJson)))]

end PendingQueue
end JobSpool
