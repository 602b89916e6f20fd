/-
# Progress of a running job

`Progress` with `percent` and `to_line`, and `parse_progress`: `SPEC_FULL.md`, 4.4 and E7.

A worker keeps two counts in its progress file, the items it has processed and all
items, separated by blanks and ended by a line feed (`line`). It overwrites the file,
so a reader may see a part of the line, and anything that does not hold two counts
is no progress (`ofText?`). What follows the second count is ignored.
-/

import JobSpool.Json.Value
import JobSpool.Text.Blank
import JobSpool.Text.Count

namespace JobSpool

/-- How far a worker has come. -/
structure Progress where
  processed : UInt64
  total : UInt64
  deriving DecidableEq, Repr

namespace Progress

/-- `percent`: whole percent done, in 64-bit arithmetic; nothing when there are no items. A worker
that has processed more than all is done. -/
def percent (p : Progress) : Option UInt8 :=
  if p.total = 0 then none
  else some (min p.processed p.total * 100 / p.total).toUInt8

/-- `to_line`: the text of a progress file. -/
def line (p : Progress) : String :=
  Text.writeCount p.processed ++ " " ++ Text.writeCount p.total ++ "\n"

/-- Progress as it is shown. -/
def shown (p : Progress) : String :=
  Text.writeCount p.processed ++ " / " ++ Text.writeCount p.total

/-- The progress that the fields of a progress file hold. -/
def ofFields? : List (List Char) → Option Progress
  | processed :: total :: _ =>
    match Text.readCount? processed, Text.readCount? total with
    | some processed, some total => some ⟨processed, total⟩
    | _, _ => none
  | _ => none

/-- `parse_progress`: the progress that the text of a progress file holds. -/
def ofText? (text : String) : Option Progress :=
  ofFields? (Text.fields text.toList)

/-- Progress as a JSON object. -/
def toJson (p : Progress) : Json.Value :=
  .object [("processed", .number (.natural p.processed)), ("total", .number (.natural p.total))]

end Progress
end JobSpool
