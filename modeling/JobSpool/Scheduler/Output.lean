/-
# What a program leaves behind

The output of a program, and `format_command_error`: `SPEC_FULL.md`, 7 and E9.

A finished program has printed two streams of bytes and ended with an exit code, or
without one when a signal ended it. A `complaint` is what is shown when it failed: the
error stream, then the other one, each without blanks at its ends; a program that
printed nothing is described by its exit code.
-/

import JobSpool.Text.Blank
import JobSpool.Text.Decode

namespace JobSpool

/-- What a finished program leaves behind. -/
structure Output where
  stdout : ByteArray
  stderr : ByteArray
  /-- The exit code, unless a signal ended the program. -/
  exit : Option UInt8

namespace Output

/-- Did the program succeed? -/
def success (o : Output) : Bool :=
  o.exit == some 0

/-- The text of the other stream, without blanks at its ends. -/
def message (o : Output) : String :=
  Text.trimmed (Text.lenient o.stdout)

/-- The text of the error stream, without blanks at its ends. -/
def errorMessage (o : Output) : String :=
  Text.trimmed (Text.lenient o.stderr)

/-- Did the program print anything but blanks? -/
def isSilent (o : Output) : Bool :=
  o.errorMessage.isEmpty && o.message.isEmpty

/-- The exit code as it is shown. -/
def shownExit (o : Output) : String :=
  match o.exit with
  | some code => code.toNat.repr
  | none => "-1"

/-- `format_command_error`: what is shown of a program that failed. -/
def complaint (o : Output) : String :=
  match o.errorMessage.isEmpty, o.message.isEmpty with
  | true, true => "Command failed with exit code " ++ o.shownExit
  | true, false => o.message
  | false, true => o.errorMessage
  | false, false => o.errorMessage ++ "\n" ++ o.message

end Output
end JobSpool
