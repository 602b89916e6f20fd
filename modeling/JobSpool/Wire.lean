/-
# Values read from JSON text

`Principal`, `Ticket`, `JobState`, `JobKind` and `Progress` as other programs hand them over
(`SPEC_FULL.md`, 6 and E6).

The values that other programs hand over as JSON: principals, tickets, states, kinds of
jobs and progress. The text is read from left to right, and a value that does not fit is
reported where it stands, even if the text breaks off later.

A state is its word, or an object with that word and `null`. A kind is an object with a
member `type`, wherever it stands, or a list that starts with the type. Progress is an
object or a list of its two counts. Members that are not known are skipped.
-/

import JobSpool.Job
import JobSpool.Json.Reader
import JobSpool.Progress

namespace JobSpool
namespace Wire

open Json (Fault)

/-- A principal. -/
def principal (cs : List Char) : Except Fault (Principal × List Char) := do
  let (name, rest) ← Json.expectText cs
  match Principal.ofName name with
  | .ok p => return (p, rest)
  | .error _ => throw .mismatch

/-- A ticket. -/
def ticket (cs : List Char) : Except Fault (Ticket × List Char) := do
  let (text, rest) ← Json.expectText cs
  return (⟨text⟩, rest)

/-- A text that is one of some words. -/
def oneOf {α : Type} (ofWord? : String → Option α) (cs : List Char) :
    Except Fault (α × List Char) := do
  let (text, rest) ← Json.expectText cs
  match ofWord? text with
  | some x => return (x, rest)
  | none => throw .mismatch

/-- The brace at the end of an object. -/
def endObject (cs : List Char) : Except Fault (Unit × List Char) :=
  match Json.skipGaps cs with
  | '\x7d' :: rest => .ok ((), rest)
  | [] => .error .unfinished
  | _ => .error .malformed

/-- A name in an object that is one of some words. -/
def nameOf {α : Type} (ofWord? : String → Option α) (cs : List Char) :
    Except Fault (α × List Char) :=
  match Json.skipGaps cs with
  | [] => .error .unfinished
  | '"' :: rest => oneOf ofWord? ('"' :: rest)
  | _ => .error .malformed

/-- The state of a job. -/
def state (cs : List Char) : Except Fault (JobState × List Char) :=
  match Json.skipGaps cs with
  | [] => .error .unfinished
  | '"' :: rest => oneOf JobState.ofLabel? ('"' :: rest)
  | '\x7b' :: rest => do
    let (s, rest) ← nameOf JobState.ofLabel? rest
    let ((), rest) ← Json.colon rest
    let ((), rest) ← Json.expectNull rest
    let ((), rest) ← endObject rest
    return (s, rest)
  | _ => .error .malformed

/-! ### Progress -/

/-- The two counts, as far as they are read. -/
structure Counts where
  processed : Option UInt64 := none
  total : Option UInt64 := none

/-- A count as the value of a member. -/
def memberCount (cs : List Char) : Except Fault (UInt64 × List Char) := do
  let ((), rest) ← Json.colon cs
  Json.expectCount rest

/-- A member of progress. No count may be given twice. -/
def progressMember (counts : Counts) (name : String) (cs : List Char) :
    Except Fault (Counts × List Char) :=
  if name == "processed" then
    if counts.processed.isSome then .error .mismatch
    else (memberCount cs).map fun r => ({ counts with processed := some r.1 }, r.2)
  else if name == "total" then
    if counts.total.isSome then .error .mismatch
    else (memberCount cs).map fun r => ({ counts with total := some r.1 }, r.2)
  else do
    let ((), rest) ← Json.colon cs
    let ((), rest) ← Json.skipValue rest
    return (counts, rest)

/-- An item of a list that has to be there. -/
def requiredItem {α : Type} (first : Bool) (item : List Char → Except Fault (α × List Char))
    (cs : List Char) : Except Fault (α × List Char) := do
  match ← Json.nextItem first cs with
  | none => throw .mismatch
  | some rest => item rest

/-- Progress. -/
def progress (cs : List Char) : Except Fault (Progress × List Char) :=
  match Json.skipGaps cs with
  | '[' :: rest => do
    let (processed, rest) ← requiredItem true Json.expectCount rest
    let (total, rest) ← requiredItem false Json.expectCount rest
    let ((), rest) ← Json.endList rest
    return (⟨processed, total⟩, rest)
  | '\x7b' :: rest => do
    let (counts, rest) ← Json.members progressMember (rest.length + 1) true {} rest
    match counts.processed, counts.total with
    | some processed, some total => return (⟨processed, total⟩, rest)
    | _, _ => throw .mismatch
  | _ => .error (Json.mismatchAt cs)

/-! ### Kinds of jobs -/

/-- The types of jobs. -/
inductive KindType where
  | profile
  | ping
  deriving DecidableEq, Repr

/-- The type with a given word. -/
def KindType.ofWord? : String → Option KindType
  | "profile" => some profile
  | "ping" => some ping
  | _ => none

/-- An object with a type, as far as it is read: the type, and the other members, the latest
first. -/
structure Tagged where
  type : Option KindType := none
  members : List (String × Json.Value) := []

/-- How deep the values inside a kind may be nested, plus one. -/
def innerDepth : Nat := Json.depthLimit - 1

/-- A member of a kind. The type may not be given twice. -/
def kindMember (tagged : Tagged) (name : String) (cs : List Char) :
    Except Fault (Tagged × List Char) :=
  if name == "type" then
    if tagged.type.isSome then .error .mismatch
    else do
      let ((), rest) ← Json.colon cs
      let (type, rest) ← oneOf KindType.ofWord? rest
      return ({ tagged with type := some type }, rest)
  else do
    let ((), rest) ← Json.colon cs
    let (value, rest) ← Json.value innerDepth rest
    return ({ tagged with members := (name, value) :: tagged.members }, rest)

/-- The value of the only member with a given name. -/
def onlyMember (name : String) (members : List (String × Json.Value)) : Option Json.Value :=
  match members.filter (·.1 == name) with
  | [m] => some m.2
  | _ => none

/-- A ping with given counts, if they are counts of the right size. -/
def pingOf : Option Json.Value → Option Json.Value → Except Fault JobKind
  | some (.number (.natural retries)), some (.number (.natural pause)) =>
    if retries.toNat < UInt32.size then .ok (.ping retries.toUInt32 pause) else .error .mismatch
  | _, _ => .error .mismatch

/-- The kind with a type and other members. -/
def kindOfMembers (type : KindType) (members : List (String × Json.Value)) : Except Fault JobKind :=
  match type with
  | .profile => .ok .profile
  | .ping => pingOf (onlyMember "retry_count" members) (onlyMember "pause_millis" members)

/-- The kind with a type and the items behind it. -/
def kindOfItems (type : KindType) (items : List Json.Value) : Except Fault JobKind :=
  match type, items with
  | .profile, [] => .ok .profile
  | .ping, [retries, pause] => pingOf (some retries) (some pause)
  | _, _ => .error .mismatch

/-- The kind of a job. -/
def kind (cs : List Char) : Except Fault (JobKind × List Char) :=
  match Json.skipGaps cs with
  | '[' :: rest => do
    let (type, rest) ← requiredItem true (oneOf KindType.ofWord?) rest
    let (items, rest) ← Json.items (Json.value innerDepth) (rest.length + 1) false [] rest
    let kind ← kindOfItems type items
    return (kind, rest)
  | '\x7b' :: rest => do
    let (tagged, rest) ← Json.members kindMember (rest.length + 1) true {} rest
    match tagged.type with
    | none => throw .mismatch
    | some type =>
      let kind ← kindOfMembers type tagged.members
      return (kind, rest)
  | _ => .error (Json.mismatchAt cs)

end Wire
end JobSpool
